import ApiProjection.Proofs.Reference.Site
/-!
# Properties carried over from what is visited

Often a written node has a property because each node that is visited for it has another one: it has no
entry twice since no map of a visited node has a key twice, or its free-form values have what the values of
the visited nodes have. `Visit.Carries` says so of a projection. It is shown here for lists, named parts and
optional parts, and for a node from its parts; what is left to each kind of node is the object that is put
together from them.
-/
namespace ApiProjection

namespace Visit

/-- Whether a node has a property wherever it is written if all nodes visited for it have another one. -/
def Carries (Q : Subject → Prop) (R : Node → Prop) (f : Pointer → Traced Node) (vs : List Visit) : Prop :=
  (∀ v ∈ vs, Q v.subject) → ∀ p, R (f p).value

namespace Carries

variable {Q : Subject → Prop} {R : Node → Prop}

section
variable {α : Type} {f : α → Pointer → Traced Node} {g : α → List Visit} (p : Pointer)

theorem option {o : Option α} (hf : ∀ x ∈ o, Carries Q R (f x) (g x)) (h : ∀ x ∈ o, ∀ v ∈ g x, Q v.subject) :
    ∀ n ∈ (Traced.option f p o).value, R n := by
  cases o with
  | none => simp [Traced.option]
  | some x => simpa [Traced.option] using hf x rfl (h x rfl) p

theorem items {xs : List α} (hf : ∀ x ∈ xs, Carries Q R (f x) (g x)) (h : ∀ x ∈ xs, ∀ v ∈ g x, Q v.subject) :
    ∀ n ∈ (Traced.items f p 0 xs).value, R n := by
  rw [Traced.value_items, List.forall_mem_map]
  exact fun e he => hf e.1 (List.fst_mem_of_mem_zipIdx he) (h e.1 (List.fst_mem_of_mem_zipIdx he)) _

theorem named {xs : List (String × α)} (hf : ∀ x ∈ xs, Carries Q R (f x.2) (g x.2))
    (h : ∀ x ∈ xs, ∀ v ∈ g x.2, Q v.subject) : ∀ e ∈ (Traced.named f p xs).value, R e.2 := by
  rw [Traced.value_named, List.forall_mem_map]
  exact fun x hx => hf x hx (h x hx) _

end

section
variable {t : Target} {u : Subject} {parts : List (String × List Visit)}

/-- A node that may be a reference. If it is, nothing is visited but the node itself. -/
theorem node {ref : Option String} (hreference : ∀ target, R (.reference target)) (href : nonEmpty ref = u.ref?)
    (h : nonEmpty ref = none → Q u → (∀ b ∈ parts, ∀ v ∈ b.2, Q v.subject) → ∀ p, R (u.project t p).value) :
    Carries Q R (u.project t) (⟨[], u⟩ :: below ref parts) := by
  intro hall p
  obtain ⟨hu, hparts⟩ := List.forall_mem_cons.1 hall
  cases hr : nonEmpty ref with
  | some target =>
    rw [Subject.project_ref (href.symm.trans hr)]
    exact hreference target
  | none => exact h hr hu ((forall_below_none hr).1 hparts) p

/-- A node that is never a reference. -/
theorem whole (h : Q u → (∀ b ∈ parts, ∀ v ∈ b.2, Q v.subject) → ∀ p, R (u.project t p).value) :
    Carries Q R (u.project t) (⟨[], u⟩ :: gather parts) := by
  intro hall p
  obtain ⟨hu, hparts⟩ := List.forall_mem_cons.1 hall
  exact h hu (forall_gather.1 hparts) p

end
end Carries
end Visit
end ApiProjection
