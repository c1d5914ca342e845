import ApiProjection.Api.Schema
import ApiProjection.Target
/-!
# Vendor extensions

Keys that begin with `x-` may stand beside the fields of a written object. The newer version keeps
two beginnings for its makers; a key with one of them is left out.
-/
namespace ApiProjection.Extension

/-- The beginnings that the newer version reserves. -/
def reserved : List String := ["x-oai-", "x-oas-"]

/-- Whether a key may be written in a version. -/
def isAllowed (t : Target) (key : String) : Bool :=
  "x-".isPrefixOf key && !(t.isFeatureRich && reserved.any fun r => r.isPrefixOf key)

/-- The extensions that may be written in a version. -/
def allowed (t : Target) (es : Extensions) : Extensions := es.filter fun (k, _) => isAllowed t k

end ApiProjection.Extension
