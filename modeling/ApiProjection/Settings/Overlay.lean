import ApiProjection.Json.Basic
import ApiProjection.Value.Basic
/-!
# Laying objects over one another

`Json.overlay base top` is the object `base` with the members of `top` put in: where both have an
object the two are laid over one another, else the member of `top` takes the place of the other.
-/
namespace ApiProjection.Json

mutual
/-- One value over another, if there is another. -/
def layer : Option Json → Json → Json
  | some (.object ms), .object ns => .object (overlay ms ns)
  | _, j => j

/-- The members of an object over those of another, which keep their places. -/
def overlay (base : List (String × Json)) : List (String × Json) → List (String × Json)
  | [] => base
  | (k, j) :: ms => overlay (upsert (· == ·) k (layer (base.lookup k) j) base) ms
end

end ApiProjection.Json
