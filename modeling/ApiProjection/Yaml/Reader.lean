import ApiProjection.Yaml.Node.Value
import ApiProjection.Yaml.Token.Reader
/-!
# Reading YAML text

`Yaml.read` is the value of the document that a text consists of; a text without one is null.
-/
namespace ApiProjection.Yaml

def read (s : String) : Except Fault Value := do
  match ← Node.ofTokens (Token.read s) with
  | none => return .null
  | some n => n.value

end ApiProjection.Yaml
