import ApiProjection.Diagnostic.Warnings
/-!
# Results with warnings

`Traced α` is a result together with the warnings recorded on the way to it, in their order.
-/
namespace ApiProjection

structure Traced (α : Type) where
  value : α
  warnings : Warnings := []

namespace Traced

instance : Monad Traced where
  pure a := ⟨a, []⟩
  bind x f := let y := f x.value; ⟨y.value, x.warnings ++ y.warnings⟩

/-- Records a finding at a place. -/
def warn (f : Finding) (p : Pointer) : Traced Unit := ⟨(), [f.warning p]⟩

/-- Records a finding at a place if it is there. -/
def warnIf (c : Bool) (f : Finding) (p : Pointer) : Traced Unit := if c then warn f p else pure ()

@[simp] theorem value_pure {α : Type} (a : α) : (pure a : Traced α).value = a := rfl

@[simp] theorem warnings_pure {α : Type} (a : α) : (pure a : Traced α).warnings = [] := rfl

@[simp] theorem value_bind {α β : Type} (x : Traced α) (f : α → Traced β) :
    (x >>= f).value = (f x.value).value := rfl

@[simp] theorem warnings_bind {α β : Type} (x : Traced α) (f : α → Traced β) :
    (x >>= f).warnings = x.warnings ++ (f x.value).warnings := rfl

end Traced
end ApiProjection
