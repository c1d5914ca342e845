import Mathlib.Data.List.Basic
import Mathlib.Data.List.Forall2
import ApiProjection.Projection.Schema
/-!
# Reading fields back

The entries of an object are those of its fields one after another, and a field that is not set has
none. As each field has a name of its own, nothing is lost by that.

* `Node.Field.flatten_inj`: rows of fields with the same distinct names and the same entries are equal.
* `Node.Field.text?_inj` and its like: which values of a field are written alike. An empty text is
  written as an absent one, all other values are told apart.
-/
namespace ApiProjection

theorem Number.toValue_inj {m n : Number} : m.toValue = n.toValue ↔ m = n := by
  cases m <;> cases n <;> simp [toValue]

theorem Value.isNull_iff {v : Value} : v.isNull = true ↔ v = .null := by
  unfold isNull
  split
  · simp
  · rename_i h
    simpa using h

@[simp] theorem nonEmpty_nonEmpty (o : Option String) : nonEmpty (nonEmpty o) = nonEmpty o := by
  match o with
  | none => rfl
  | some s =>
    by_cases hs : s = ""
    · rw [hs]
      rfl
    · have h : nonEmpty (some s) = some s := by
        unfold nonEmpty
        split
        · rename_i he
          exact absurd (Option.some.inj he) hs
        · rfl
      rw [h, h]

namespace Node.Field

/-! ## Names -/

/-- Whether all entries of a field have the given name. -/
def Under (name : String) (f : Field) : Prop := ∀ e ∈ f, e.1 = name

section
variable (name : String)

@[simp] theorem under_nil : Under name [] := by simp [Under]

@[simp] theorem under_single (n : Node) : Under name [(name, n)] := by simp [Under]

@[simp] theorem under_text (s : String) : Under name (text name s) := under_single name _

@[simp] theorem under_text? (o : Option String) : Under name (text? name o) := by
  unfold text?
  repeat' split
  all_goals simp

@[simp] theorem under_flag (b : Bool) : Under name (flag name b) := by
  cases b <;> simp [flag]

@[simp] theorem under_int? (o : Option Int) : Under name (int? name o) := by
  cases o <;> simp [int?]

@[simp] theorem under_number? (o : Option Number) : Under name (number? name o) := by
  cases o <;> simp [number?]

@[simp] theorem under_free (v : Value) : Under name (free name v) := by
  unfold free
  split <;> simp

@[simp] theorem under_frees (vs : List Value) : Under name (frees name vs) := by
  unfold frees
  split <;> simp

@[simp] theorem under_texts (ss : List String) : Under name (texts name ss) := by
  unfold texts
  split <;> simp

@[simp] theorem under_node? (o : Option Node) : Under name (node? name o) := by
  cases o <;> simp [node?]

@[simp] theorem under_nodes (ns : List Node) : Under name (nodes name ns) := by
  unfold nodes
  split <;> simp

@[simp] theorem under_named (ns : List (String × Node)) : Under name (named name ns) := by
  unfold named
  split <;> simp

end

theorem keys_flatten {names : List String} {fs : List Field} (h : List.Forall₂ Under names fs) :
    ∀ e ∈ fs.flatten, e.1 ∈ names := by
  induction h with
  | nil => simp
  | cons hf _ ih =>
    simp only [List.flatten_cons, List.mem_append]
    rintro e (he | he)
    · exact hf e he ▸ List.mem_cons_self
    · exact List.mem_cons_of_mem _ (ih e he)

/-- Rows of fields with the same distinct names and the same entries are equal. -/
theorem flatten_inj (names : List String) {fs gs : List Field} (hn : names.Nodup)
    (hf : List.Forall₂ Under names fs) (hg : List.Forall₂ Under names gs) :
    fs.flatten = gs.flatten ↔ fs = gs := by
  refine ⟨fun h => ?_, fun h => h ▸ rfl⟩
  induction hf generalizing gs with
  | nil =>
    cases hg
    rfl
  | @cons name f names fs hu hfs ih =>
    obtain _ | @⟨_, g, _, gs, hv, hgs⟩ := hg
    obtain ⟨hfresh, hn⟩ := List.nodup_cons.1 hn
    -- the entries with the first name are those of the first field
    have hfirst {f : Field} {fs : List Field} (hu : Under name f) (hfs : List.Forall₂ Under names fs) :
        (f ++ fs.flatten).filter (·.1 == name) = f ∧ (f ++ fs.flatten).filter (·.1 != name) = fs.flatten := by
      have hother : ∀ e ∈ fs.flatten, e.1 ≠ name := fun e he h => hfresh (h ▸ keys_flatten hfs e he)
      constructor
      · rw [List.filter_append, List.filter_eq_self.2, List.filter_eq_nil_iff.2, List.append_nil]
        · simpa using hother
        · exact fun e he => beq_iff_eq.2 (hu e he)
      · rw [List.filter_append, List.filter_eq_nil_iff.2, List.filter_eq_self.2, List.nil_append]
        · simpa using hother
        · exact fun e he => by simp [hu e he]
    rw [List.flatten_cons, List.flatten_cons] at h
    have hhead : f = g := by rw [← (hfirst hu hfs).1, h, (hfirst hv hgs).1]
    have htail : fs.flatten = gs.flatten := by rw [← (hfirst hu hfs).2, h, (hfirst hv hgs).2]
    rw [hhead, ih hn hgs htail]

/-! ## Values -/

section
variable (name : String)

@[simp] theorem text_inj {s t : String} : text name s = text name t ↔ s = t := by
  simp [text]

@[simp] theorem text?_inj {o p : Option String} : text? name o = text? name p ↔ nonEmpty o = nonEmpty p := by
  unfold text? nonEmpty
  repeat' split
  all_goals simp_all

@[simp] theorem flag_inj {b c : Bool} : flag name b = flag name c ↔ b = c := by
  cases b <;> cases c <;> simp [flag]

@[simp] theorem int?_inj {o p : Option Int} : int? name o = int? name p ↔ o = p := by
  cases o <;> cases p <;> simp [int?]

@[simp] theorem number?_inj {o p : Option Number} : number? name o = number? name p ↔ o = p := by
  cases o <;> cases p <;> simp [number?, Number.toValue_inj]

@[simp] theorem free_inj {v w : Value} : free name v = free name w ↔ v = w := by
  unfold free
  split <;> split <;> simp_all [Value.isNull_iff]
  rintro rfl
  simp_all

@[simp] theorem frees_inj {vs ws : List Value} : frees name vs = frees name ws ↔ vs = ws := by
  have hi : Function.Injective (List.map Node.free) :=
    List.map_injective_iff.2 fun _ _ h => Node.free.inj h
  cases vs <;> cases ws <;> simp [frees, ← hi.eq_iff]

@[simp] theorem texts_inj {ss ts : List String} : texts name ss = texts name ts ↔ ss = ts := by
  have hi : Function.Injective (List.map Node.text) :=
    List.map_injective_iff.2 fun _ _ h => Node.text.inj h
  cases ss <;> cases ts <;> simp [texts, ← hi.eq_iff]

@[simp] theorem node?_inj {o p : Option Node} : node? name o = node? name p ↔ o = p := by
  cases o <;> cases p <;> simp [node?]

@[simp] theorem nodes_inj {ns ms : List Node} : nodes name ns = nodes name ms ↔ ns = ms := by
  cases ns <;> cases ms <;> simp [nodes]

@[simp] theorem named_inj {ns ms : List (String × Node)} : named name ns = named name ms ↔ ns = ms := by
  cases ns <;> cases ms <;> simp [named]

end

end Node.Field
end ApiProjection
