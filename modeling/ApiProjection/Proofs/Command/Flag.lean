import ApiProjection.Proofs.Command.Config
/-!
# Words for truth values

A word for a truth value is read in two places: as the value of a variable of the environment, where blanks around it
are passed over and a word that is none is refused, and as the new value of a setting, where four words turn it on and
every other turns it off. So `config set` takes what the environment refuses, and turns a setting off by a word that is
read as true there if blanks are around it.

* `Settings.truth?_of_on`: what turns a setting on is read as true.
* `Command.Config.set_flag`: what a run comes to that changes such a setting, and for which words that is what the
  environment makes of them.
* `Command.Config.flag_unrefused`: a word that is not refused.
-/
namespace ApiProjection

/-! ## Words -/

namespace Text

variable {p : Char → Bool} {cs : List Char} {c : Char}

/-- Nothing is trimmed where there is nothing to be trimmed. -/
theorem trimBy_of_forall (h : ∀ c ∈ cs, p c = false) : trimBy p cs = cs := by
  have hkeep : ∀ ds : List Char, (∀ c ∈ ds, p c = false) → ds.dropWhile p = ds := by
    intro ds hds
    cases ds with
    | nil => rfl
    | cons d ds => exact List.dropWhile_cons_of_neg (by simp [hds d List.mem_cons_self])
  rw [trimBy, hkeep cs h, hkeep cs.reverse fun c hc => h c (List.mem_reverse.1 hc), List.reverse_reverse]

/-- A blank is no capital letter. -/
theorem toLower_blank (h : isBlank c = true) : c.toLower = c := by
  have hcapital : ¬ (c.val ≥ 'A'.val ∧ c.val ≤ 'Z'.val) := by
    rintro ⟨hlo, hhi⟩
    have hlo : 65 ≤ c.toNat := hlo
    have hhi : c.toNat ≤ 90 := hhi
    simp only [isBlank, isSpace, Bool.or_eq_true, Bool.and_eq_true, decide_eq_true_eq, beq_iff_eq] at h
    omega
  unfold Char.toLower
  exact dif_neg hcapital

/-- A text has no blanks if it has none in lower case. -/
theorem trimBlank_of_lowerAscii {s : String} (h : ∀ c ∈ (lowerAscii s).toList, isBlank c = false) : trimBlank s = s := by
  have hall : ∀ c ∈ s.toList, isBlank c = false := by
    intro c hc
    by_contra hblank
    rw [Bool.not_eq_false] at hblank
    have hmem : c.toLower ∈ (lowerAscii s).toList := by
      rw [lowerAscii, String.toList_map]
      exact List.mem_map_of_mem hc
    have hno := h _ hmem
    rw [toLower_blank hblank, hblank] at hno
    cases hno
  rw [trimBlank, trimBy_of_forall hall, String.ofList_toList]

end Text

namespace Settings

/-- Whether a word turns a setting on. -/
def turnsOn (word : String) : Bool := onWords.contains (Text.lowerAscii word)

/-- A word that turns a setting on is read as true. -/
theorem truth?_of_on {word : String} (h : turnsOn word = true) : truth? word = some true := by
  have hwords : Text.lowerAscii word ∈ onWords := List.contains_iff_mem.1 h
  have hplain : ∀ w ∈ onWords, (∀ c ∈ w.toList, Text.isBlank c = false) ∧ trueWords.contains w = true := by
    simp [onWords, trueWords, Text.isBlank, Text.isSpace]
  obtain ⟨hblank, htrue⟩ := hplain _ hwords
  rw [truth?, Text.trimBlank_of_lowerAscii hblank]
  simp only [htrue, if_true]

/-- A word that is read as false turns a setting off, and so does one that is refused. -/
theorem off_of_truth? {word : String} (h : truth? word ≠ some true) : turnsOn word = false := by
  by_contra hon
  rw [Bool.not_eq_false] at hon
  exact h (truth?_of_on hon)

/-- The names of the settings that are truth values. -/
def flagKeys : List String := ["strict_downlevel", "validate_spec"]

/-- Under these names there are truth values, whatever else is set. -/
theorem leaf_flag {key : String} (h : key ∈ flagKeys) (s : Settings) :
    ∃ b, Json.leaf s.members [key] = .ok (.bool b) := by
  simp only [flagKeys, List.mem_cons, List.not_mem_nil, or_false] at h
  rcases h with rfl | rfl
  · exact ⟨s.strict, rfl⟩
  · exact ⟨s.validate, rfl⟩

theorem splitAt_flag {key : String} (h : key ∈ flagKeys) : Text.splitAt '.' key = [key] := by
  simp only [flagKeys, List.mem_cons, List.not_mem_nil, or_false] at h
  rcases h with rfl | rfl <;> cbv

/-- Any word is a new value for such a setting. -/
theorem change_flag {key : String} {s : Settings} (h : key ∈ flagKeys) (hs : DistinctKeys s.metaSchemas) (word : String) :
    ∃ s', s.change key word = .ok (s', .bool (turnsOn word)) := by
  obtain ⟨b, hb⟩ := leaf_flag h s
  have hold : Json.leaf s.members (Text.splitAt '.' key) = .ok (.bool b) := by rw [splitAt_flag h, hb]
  have hvalue : coerce key word (.bool b) = .ok (.bool (turnsOn word)) := rfl
  obtain ⟨s', hchange, -⟩ := change_of_leaf hs hold hvalue
  exact ⟨s', hchange⟩

end Settings

/-! ## Runs -/

namespace Command.Config

open Settings

variable {args : List String} {p : ProgramOptions} {key word : String} {w : Session} {e : Int × Session} {s : Settings}

/-- Whatever the word, there is a way to ask for it as the value of a setting. -/
theorem callsSet_any (key word : String) : CallsSet ["config", "set", "--", key, word] {} key word := by
  refine ⟨["--", key, word], ⟨["set", "--", key, word], Program.group.takes_command {} (by decide) _,
    group.takes_command () (by decide) _⟩, ?_⟩
  simp [Form.Takes, gather]

/-- What is said of a change of such a setting has no markup in it. -/
theorem notice_flag (h : key ∈ flagKeys) (b : Bool) : ∀ c ∈ (notice key (.bool b)).toList, c ≠ '[' ∧ c ≠ '\\' := by
  have hplain : (notice key (.bool b)).toList.all (fun c => c != '[' && c != '\\') = true := by
    simp only [flagKeys, List.mem_cons, List.not_mem_nil, or_false] at h
    rcases h with rfl | rfl <;> cases b <;> rfl
  simpa using hplain

/-- So it can be said. -/
theorem sayable_flag (h : key ∈ flagKeys) (w : Session) : Sayable p key word w := by
  intro s s' value hload hchange
  obtain ⟨s'', hchange'⟩ := change_flag h hload.distinct word
  rw [hchange] at hchange'
  cases hchange'
  rw [Console.successText?_of_plain _ (notice_flag h _)]
  rfl

/-- A run has succeeded, and a setting has a truth value after it. -/
def Stores (key : String) (b : Bool) (e : Int × Session) : Prop :=
  e.1 = 0 ∧ ∃ s, Loads e.2 s ∧ Json.leaf s.members [key] = .ok (.bool b)

/-- What users of both would expect of a run: it makes of a word what the environment makes of it. -/
structure Heeds (key word : String) (w : Session) (e : Int × Session) : Prop where
  stores : ∀ b, Stores key b e ↔ truth? word = some b
  refuses : truth? word = none → e.1 = 2 ∧ kept e.2 = kept w

theorem Stores.unique {b b' : Bool} (h : Stores key b e) (h' : Stores key b' e) : b = b' := by
  obtain ⟨-, s, hs, hb⟩ := h
  obtain ⟨-, s', hs', hb'⟩ := h'
  obtain rfl := hs.unique hs'
  rw [hb] at hb'
  cases hb'
  rfl

/-- Where a word is stored as what it turns a setting to, users of both are content with that if it turns the setting on
or is read as false. -/
theorem heeds_iff (h : Stores key (turnsOn word) e) :
    Heeds key word w e ↔ turnsOn word = true ∨ truth? word = some false := by
  constructor
  · intro hheeds
    have hread := (hheeds.stores _).1 h
    cases hon : turnsOn word with
    | true => exact .inl rfl
    | false =>
      rw [hon] at hread
      exact .inr hread
  · intro hword
    have hread : truth? word = some (turnsOn word) := by
      rcases hword with hon | hoff
      · rw [hon]
        exact truth?_of_on hon
      · rw [hoff, off_of_truth? (by rw [hoff]; decide)]
    refine ⟨fun b => ?_, fun hnone => ?_⟩
    · rw [hread, Option.some.injEq]
      constructor
      · exact fun hb => h.unique hb
      · rintro rfl
        exact h
    · rw [hread] at hnone
      cases hnone

/-- A run that changes such a setting succeeds if settings can be saved, and changes nothing else. -/
theorem run_flag (hkey : key ∈ flagKeys) (hcall : CallsSet args p key word) (hstamp : '/' ∉ w.stamp.toList)
    (hload : Loads w s) :
    ((Program.run args w).1 = 0 → ∃ s', Loads (Program.run args w).2 s' ∧ ∀ path,
      Json.leaf s'.members path = if path = [key] then .ok (.bool (turnsOn word)) else Json.leaf s.members path) ∧
    ((Program.run args w).1 ≠ 0 → kept (Program.run args w).2 = kept w ∧ ¬ Savable w) := by
  obtain ⟨houtcome, -, -⟩ := run_set_outcome hstamp hcall
  obtain ⟨s', hchange⟩ := change_flag hkey hload.distinct word
  have hsayable : Sayable p key word w := sayable_flag hkey w
  constructor
  · intro hzero
    obtain ⟨old, new, value, hold, hvalue, hnew, hleaf⟩ := houtcome.changed hzero
    obtain rfl := hload.unique hold
    rw [hchange] at hvalue
    cases hvalue
    rw [splitAt_flag hkey] at hleaf
    exact ⟨_, hnew, hleaf⟩
  · intro hne
    exact ⟨houtcome.refused hne hsayable, fun hcan => hne (houtcome.succeeds hcan hsayable ⟨s, _, hload, hchange⟩)⟩

theorem stores_flag (hkey : key ∈ flagKeys) (hcall : CallsSet args p key word) (hstamp : '/' ∉ w.stamp.toList)
    (hload : Loads w s) (hcan : Savable w) : Stores key (turnsOn word) (Program.run args w) := by
  obtain ⟨hchanged, hfailed⟩ := run_flag hkey hcall hstamp hload
  have hzero : (Program.run args w).1 = 0 := by
    by_contra hne
    exact (hfailed hne).2 hcan
  obtain ⟨s', hs', hleaf⟩ := hchanged hzero
  exact ⟨hzero, s', hs', by rw [hleaf, if_pos rfl]⟩

/-- **A run turns a setting on by four words and off by any other; it does what the environment would do with the word
exactly if the word turns the setting on or is read as false there.**

It changes no other setting, and nothing at all if it fails, which it does only if settings cannot be saved. -/
theorem set_flag (hkey : key ∈ flagKeys) (hcall : CallsSet args p key word) (hstamp : '/' ∉ w.stamp.toList)
    (hload : Loads w s) :
    let e := Program.run args w
    (e.1 = 0 → ∃ s', Loads e.2 s' ∧ ∀ path,
      Json.leaf s'.members path = if path = [key] then .ok (.bool (turnsOn word)) else Json.leaf s.members path) ∧
    (e.1 ≠ 0 → kept e.2 = kept w ∧ ¬ Savable w) ∧
    (Savable w → Stores key (turnsOn word) e ∧
      (Heeds key word w e ↔ turnsOn word = true ∨ truth? word = some false)) := by
  intro e
  obtain ⟨hchanged, hfailed⟩ := run_flag hkey hcall hstamp hload
  refine ⟨hchanged, hfailed, fun hcan => ?_⟩
  have hstores := stores_flag hkey hcall hstamp hload hcan
  exact ⟨hstores, heeds_iff hstores⟩

/-! ## Words in a bare session -/

theorem turnsOn_yes : turnsOn "Yes" = true := by cbv

theorem truth?_maybe : truth? "maybe" = none := by cbv

/-- A capital letter makes no difference to a word that turns a setting on. -/
theorem set_flag_yes :
    Stores "strict_downlevel" true (Program.run ["config", "set", "--", "strict_downlevel", "Yes"] bare) ∧
      Heeds "strict_downlevel" "Yes" bare (Program.run ["config", "set", "--", "strict_downlevel", "Yes"] bare) := by
  have hkey : "strict_downlevel" ∈ flagKeys := by decide
  obtain ⟨-, -, hrun⟩ := set_flag hkey (callsSet_any "strict_downlevel" "Yes") (by decide) loads_bare
  obtain ⟨hstores, hheeds⟩ := hrun savable_bare
  rw [turnsOn_yes] at hstores
  exact ⟨hstores, hheeds.2 (.inl turnsOn_yes)⟩

/-- **A word that is no truth value is not refused:** a run takes it and turns the setting off. -/
theorem flag_unrefused :
    ¬ ∀ (args : List String) (p : ProgramOptions) (key word : String) (w : Session) (s : Settings), key ∈ flagKeys →
      CallsSet args p key word → Loads w s → Savable w → Heeds key word w (Program.run args w) := by
  intro hclaim
  have hkey : "strict_downlevel" ∈ flagKeys := by decide
  have hcall := callsSet_any "strict_downlevel" "maybe"
  have hrefuses := (hclaim _ _ _ _ bare {} hkey hcall loads_bare savable_bare).refuses truth?_maybe
  have hstores := stores_flag hkey hcall (by decide) loads_bare savable_bare
  rw [hstores.1] at hrefuses
  exact absurd hrefuses.1 (by decide)

end Command.Config
end ApiProjection
