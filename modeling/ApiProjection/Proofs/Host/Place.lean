import ApiProjection.Proofs.Host.Disk
import Mathlib.Data.List.Induction
import Mathlib.Logic.Function.Iterate
/-!
# Where names lead

A name leads to one place at most, which its parts say without regard to what is there. What stands in a folder under
a plain name is at the place of the folder with that name behind it.

* `Disk.locate_eq`, `Disk.locate_child`.
-/
namespace ApiProjection

/-! ## Parts of names -/

namespace Text

variable {α : Type} {p : α → Bool}

theorem splitWhere_cons (c : α) (cs : List α) :
    ∃ part parts, splitWhere p cs = part :: parts ∧
      splitWhere p (c :: cs) = if p c then [] :: part :: parts else (c :: part) :: parts := by
  have hsome : ∃ part parts, splitWhere p cs = part :: parts := by
    cases cs with
    | nil => exact ⟨[], [], rfl⟩
    | cons d ds =>
      rw [splitWhere]
      split
      · split
        · exact ⟨_, _, rfl⟩
        · exact ⟨_, _, rfl⟩
      · exact ⟨_, _, rfl⟩
  obtain ⟨part, parts, h⟩ := hsome
  exact ⟨part, parts, h, by rw [splitWhere, h]⟩

/-- A separator ends the parts before it. -/
theorem splitWhere_append {x : α} (hx : p x = true) (cs ds : List α) :
    splitWhere p (cs ++ x :: ds) = splitWhere p cs ++ splitWhere p ds := by
  induction cs with
  | nil =>
    obtain ⟨part, parts, hds, h⟩ := splitWhere_cons (p := p) x ds
    rw [List.nil_append, h, if_pos hx, hds]
    rfl
  | cons c cs ih =>
    obtain ⟨part, parts, hcs, h⟩ := splitWhere_cons (p := p) c cs
    obtain ⟨part', parts', hwhole, h'⟩ := splitWhere_cons (p := p) c (cs ++ x :: ds)
    rw [ih, hcs, List.cons_append] at hwhole
    obtain ⟨rfl, rfl⟩ := List.cons.inj hwhole
    rw [List.cons_append, h', h]
    cases p c <;> rfl

theorem splitWhere_of_not_mem {cs : List α} (h : ∀ c ∈ cs, p c = false) : splitWhere p cs = [cs] := by
  induction cs with
  | nil => rfl
  | cons c cs ih =>
    rw [splitWhere, ih fun d hd => h d (List.mem_cons_of_mem c hd), h c List.mem_cons_self]
    rfl

/-- No part holds a separator. -/
theorem splitWhere_free {cs part : List α} (h : part ∈ splitWhere p cs) : ∀ c ∈ part, p c = false := by
  induction cs generalizing part with
  | nil =>
    obtain rfl := List.mem_singleton.1 h
    nofun
  | cons c cs ih =>
    obtain ⟨first, rest, hcs, hsplit⟩ := splitWhere_cons (p := p) c cs
    rw [hsplit] at h
    rw [hcs] at ih
    cases hc : p c with
    | true =>
      rw [hc, if_pos rfl, List.mem_cons] at h
      rcases h with rfl | h
      · nofun
      · exact ih h
    | false =>
      rw [hc, if_neg Bool.false_ne_true, List.mem_cons] at h
      rcases h with rfl | h
      · exact List.forall_mem_cons.2 ⟨hc, ih List.mem_cons_self⟩
      · exact ih (List.mem_cons_of_mem _ h)

end Text

theorem allParts_append (s t : String) : allParts (s ++ "/" ++ t) = allParts s ++ allParts t := by
  have htext : (s ++ "/" ++ t).toList = s.toList ++ '/' :: t.toList := by simp
  rw [allParts, Text.splitAt, htext, Text.splitWhere_append (by rfl), List.map_append, List.filter_append]
  rfl

/-- A part of a name that leads to what stands in a folder under it. -/
structure PlainPart (name : String) : Prop where
  slash : '/' ∉ name.toList
  empty : name ≠ ""
  here : name ≠ "."
  above : name ≠ ".."

theorem PlainPart.allParts {name : String} (h : PlainPart name) : allParts name = [name] := by
  have hslash : ∀ c ∈ name.toList, (c == '/') = false := fun c hc => beq_false_of_ne fun he => h.slash (he ▸ hc)
  rw [ApiProjection.allParts, Text.splitAt, Text.splitWhere_of_not_mem hslash]
  simp [h.empty]

theorem PathName.parent_child (f : PathName) (name : String) : (f.child name).parent = f := by
  simp [child, parent]

theorem PathName.text_child {f : PathName} (h : f.parts ≠ []) (name : String) :
    (f.child name).text = f.text ++ "/" ++ name := by
  have hempty : f.parts.isEmpty = false := by simp [h]
  have hchild : (f.parts ++ [name]).isEmpty = false := by simp
  rw [text, text, child]
  simp only [hempty, hchild, Bool.and_false, Bool.false_eq_true, if_false]
  rw [String.intercalate_append_of_ne_nil h (by simp), String.intercalate_singleton]
  simp only [String.append_assoc]

/-! ## Names without double dots -/

namespace PathName

variable {path : PathName}

/-- A name of parts that each lead one folder further. -/
structure Straight (path : PathName) : Prop where
  anchor : path.anchor = "" ∨ path.anchor = "/" ∨ path.anchor = "//"
  plain : ∀ part ∈ path.parts, PlainPart part

theorem Straight.text_ne (h : Straight path) (hparts : path.parts ≠ []) : path.text ≠ "" := by
  obtain ⟨anchor, parts⟩ := path
  obtain ⟨init, name, hconcat⟩ := (List.eq_nil_or_concat parts).resolve_left hparts
  rw [List.concat_eq_append] at hconcat
  subst hconcat
  by_cases hinit : init = []
  · subst hinit
    have hname : name ≠ "" := (h.plain name (by simp)).empty
    simp [text, hname]
  · have htext : text ⟨anchor, init ++ [name]⟩ = text ⟨anchor, init⟩ ++ "/" ++ name :=
      text_child (f := ⟨anchor, init⟩) hinit name
    rw [htext]
    simp

theorem Straight.parents (h : Straight path) (k : Nat) :
    Straight (parent^[k] path) ∧ (parent^[k] path).anchor = path.anchor ∧
      (parent^[k] path).parts.length = path.parts.length - k := by
  induction k with
  | zero => exact ⟨h, rfl, rfl⟩
  | succ k ih =>
    obtain ⟨hstraight, hanchor, hlength⟩ := ih
    rw [Function.iterate_succ_apply']
    refine ⟨⟨hstraight.anchor, fun part hpart => hstraight.plain part (List.dropLast_subset _ hpart)⟩, hanchor, ?_⟩
    rw [parent, List.length_dropLast, hlength]
    omega

/-- A name without double dots is read so. -/
theorem ofText_straight {name : String} (h : ".." ∉ (ofText name).parts) : Straight (ofText name) where
  anchor := by
    unfold ofText
    simp only
    split
    · exact .inl rfl
    · split
      · exact .inr (.inr rfl)
      · exact .inr (.inl rfl)
  plain part hpart := by
    have hmem : part ∈ pathParts name := hpart
    rw [pathParts, List.mem_filter, allParts, List.mem_filter, Text.splitAt, List.mem_map] at hmem
    obtain ⟨⟨⟨cs, hcs, rfl⟩, hempty⟩, hhere⟩ := hmem
    refine ⟨fun hslash => ?_, by simpa using hempty, by simpa using hhere, fun habove => h (habove ▸ hpart)⟩
    rw [String.toList_ofList] at hslash
    have hno := Text.splitWhere_free hcs _ hslash
    cases hno

end PathName

/-! ## Places -/

namespace Disk

variable {d : Disk} {path name : String} {p q : Place} {f : PathName}

/-- The place that a name leads to if the folders on the way are there. -/
def placeOf (d : Disk) (path : String) : Place := (allParts path).foldl step (if path.startsWith "/" then [] else d.here)

theorem walk_eq {parts : List String} (h : d.walk p parts = .ok q) : q = parts.foldl step p := by
  induction parts generalizing p with
  | nil =>
    cases h
    rfl
  | cons part parts ih =>
    rw [walk] at h
    split at h
    · cases h
    · split at h
      · exact ih h
      · cases h

/-- A name leads nowhere else. -/
theorem locate_eq (h : d.locate path = .ok p) : p = d.placeOf path := by
  unfold locate at h
  split at h
  · cases h
  · split at h
    · cases h
    · exact walk_eq h

theorem step_plain (hname : PlainPart name) (p : Place) : step p name = p ++ [name] := by
  rw [step, if_neg hname.here, if_neg hname.above]

/-- Where something stands in a folder its place ends with its name. -/
theorem getLast?_placeOf (hf : f.parts ≠ []) (hname : PlainPart name) :
    (d.placeOf (f.child name).text).getLast? = some name := by
  rw [placeOf, PathName.text_child hf, allParts_append, hname.allParts, List.foldl_append, List.foldl_cons, List.foldl_nil,
    step_plain hname, List.getLast?_concat]

/-- A name begins at the root or not however it goes on. -/
theorem startsWith_append {s : String} (h : s ≠ "") (t : String) : (s ++ t).startsWith "/" = s.startsWith "/" := by
  obtain ⟨c, cs, hcs⟩ := List.exists_cons_of_ne_nil fun he => h (String.toList_injective he)
  rw [Bool.eq_iff_iff, String.startsWith_string_iff, String.startsWith_string_iff, String.toList_append, hcs]
  simp

/-- Behind parts that lead to a folder another part leads on, if it is not too long. -/
theorem walk_concat {parts : List String} (hname : PlainPart name) (hsize : name.utf8ByteSize ≤ longestPart)
    (h : d.walk p parts = .ok q) (hq : d.isFolderAt q = true) : d.walk p (parts ++ [name]) = .ok (q ++ [name]) := by
  induction parts generalizing p with
  | nil =>
    cases h
    rw [List.nil_append, walk, if_neg (Nat.not_lt.2 hsize), step_plain hname]
    rfl
  | cons part parts ih =>
    rw [walk] at h
    rw [List.cons_append, walk]
    split at h
    · cases h
    · rename_i hlong
      rw [if_neg hlong]
      split at h
      · rename_i hnext
        have hfolder : d.isFolderAt (step p part) = true := by
          rw [Bool.or_eq_true] at hnext
          rcases hnext with hlast | hfolder
          · rw [List.isEmpty_iff.1 hlast] at h
            cases h
            exact hq
          · exact hfolder
        rw [hfolder, Bool.or_true, if_pos rfl]
        exact ih h
      · cases h

/-- What stands in a folder is at its place, unless its name is too long. -/
theorem locate_child (hparts : f.parts ≠ []) (hempty : f.text ≠ "") (hname : PlainPart name)
    (hnull : '\x00' ∉ name.toList) (hsize : name.utf8ByteSize ≤ longestPart) (h : d.locate f.text = .ok q)
    (hq : d.isFolderAt q = true) :
    d.locate (f.child name).text = .ok (q ++ [name]) ∨ d.locate (f.child name).text = .error .longName := by
  have hroot : (f.text ++ "/" ++ name).startsWith "/" = f.text.startsWith "/" := by
    rw [String.append_assoc, startsWith_append hempty]
  rw [PathName.text_child hparts]
  unfold locate at h ⊢
  rw [hroot, allParts_append, hname.allParts]
  split at h
  · cases h
  · rename_i hfree
    split at h
    · cases h
    · have hstill : ¬ (f.text ++ "/" ++ name).toList.contains '\x00' = true := by
        simp only [String.toList_append, List.contains_append]
        simp_all
      rw [if_neg hstill]
      split
      · exact .inr rfl
      · exact .inl (walk_concat hname hsize h hq)

/-- Where names begin that have the same anchor. -/
def base (d : Disk) (anchor : String) : Place := if anchor = "" then d.here else []

theorem placeOf_anchor {anchor : String} (h : anchor = "" ∨ anchor = "/" ∨ anchor = "//") (d : Disk) :
    d.placeOf (PathName.text ⟨anchor, []⟩) = d.base anchor := by
  have hhere : allParts "." = ["."] := by rfl
  have hroot : allParts "/" = [] := by rfl
  have hroots : allParts "//" = [] := by rfl
  have hbegins : ("/" : String).startsWith "/" = true := by simp
  have hbegin : ("//" : String).startsWith "/" = true := by simp
  have hdot : (".").startsWith "/" = false := by simp
  rcases h with rfl | rfl | rfl
  · simp [PathName.text, placeOf, hhere, hdot, step, base]
  · simp [PathName.text, placeOf, hroot, hbegins, base]
  · simp [PathName.text, placeOf, hroots, hbegin, base]

theorem placeOf_single {anchor name : String} (h : anchor = "" ∨ anchor = "/" ∨ anchor = "//") (hname : PlainPart name)
    (d : Disk) : d.placeOf (PathName.text ⟨anchor, [name]⟩) = d.base anchor ++ [name] := by
  have htext : PathName.text ⟨anchor, [name]⟩ = anchor ++ name := by simp [PathName.text]
  have happend (s : String) (hs : allParts s = []) : allParts (s ++ "/" ++ name) = [name] := by
    rw [allParts_append, hs, hname.allParts, List.nil_append]
  rw [htext, placeOf, base]
  rcases h with rfl | rfl | rfl
  · have hhead : name.startsWith "/" = false := by
      rw [Bool.eq_false_iff, Ne, String.startsWith_string_iff]
      rintro ⟨rest, hrest⟩
      exact hname.slash (hrest ▸ List.mem_cons_self)
    rw [String.empty_append, hname.allParts, hhead]
    simp [step_plain hname]
  · have hparts : allParts ("/" ++ name) = [name] := happend "" rfl
    have hhead : ("/" ++ name).startsWith "/" = true := by simp
    rw [hparts, hhead]
    simp [step_plain hname]
  · have hparts : allParts ("//" ++ name) = [name] := happend "/" rfl
    have hhead : ("//" ++ name).startsWith "/" = true := by simp
    rw [hparts, hhead]
    simp [step_plain hname]

/-- Such a name leads to the place that its parts say. -/
theorem placeOf_straight {path : PathName} (h : path.Straight) (d : Disk) : d.placeOf path.text = d.base path.anchor ++ path.parts := by
  obtain ⟨anchor, parts⟩ := path
  induction parts using List.reverseRecOn with
  | nil => rw [placeOf_anchor h.anchor, List.append_nil]
  | append_singleton parts name ih =>
    obtain ⟨hparts, hlast⟩ := List.forall_mem_append.1 h.plain
    have hname := hlast name List.mem_cons_self
    have hinit : PathName.Straight ⟨anchor, parts⟩ := ⟨h.anchor, hparts⟩
    by_cases hnil : parts = []
    · subst hnil
      exact placeOf_single h.anchor hname d
    · have htext : PathName.text ⟨anchor, parts ++ [name]⟩ = PathName.text ⟨anchor, parts⟩ ++ "/" ++ name :=
        PathName.text_child (f := ⟨anchor, parts⟩) hnil name
      have hbegins := startsWith_append (hinit.text_ne hnil) ("/" ++ name)
      have ih := ih hinit
      rw [Disk.placeOf] at ih ⊢
      rw [htext, allParts_append, hname.allParts, List.foldl_append, String.append_assoc, hbegins, ih, List.foldl_cons,
        List.foldl_nil, step_plain hname, List.append_assoc]

end Disk
end ApiProjection
