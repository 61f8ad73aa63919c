import Sentential.Proofs.Settings.Refusal

/-!
# The ceiling in the environment

A ceiling in the environment takes the place of the one in the file after the file is read and before anything
is checked. It is the only setting that it touches: other keys keep their values, and unknown keys stay unknown
(`soundButCeiling_override_iff`). So loading with it succeeds where loading without it does, with the same
settings up to the ceiling. It may also succeed where the ceiling in the file is refused, but no other fault of
the file is passed over (`ceiling_override`).
-/

namespace Sentential.Settings

variable {read : String → Option Value} {w : World} {path : Option String} {entries : List (Value × Value)}
  {key key' : String} {k v : Value} {n m : Int} {s : Settings} {e : Failure}

/-! ## Entries with one value replaced -/

theorem isText_text : (Value.text key).isText key = true := by simp [Value.isText, Value.text?]

/-- A value is one text at most. -/
theorem isText_of_ne (h : k.isText key = true) (hne : key' ≠ key) : k.isText key' = false := by
  simp only [Value.isText, beq_iff_eq, beq_eq_false_iff_ne] at h ⊢
  rw [h]
  exact fun heq => hne (Option.some.inj heq).symm

theorem lookup_eq : lookup entries key = (entries.find? (·.1.isText key)).map Prod.snd := rfl

theorem override_eq : override entries key v = entries.filter (!·.1.isText key) ++ [(.text key, v)] := rfl

/-- The key has its new value. -/
theorem lookup_override_self : lookup (override entries key v) key = some v := by
  have hold : (entries.filter (!·.1.isText key)).find? (·.1.isText key) = none := by
    rw [List.find?_eq_none]
    intro entry hentry
    simpa using (List.mem_filter.1 hentry).2
  have hnew : [(Value.text key, v)].find? (·.1.isText key) = some (.text key, v) := by simp [isText_text]
  rw [lookup_eq, override_eq, List.find?_append, hold, Option.none_or, hnew, Option.map_some]

/-- Other keys keep their values. -/
theorem lookup_override_of_ne (hne : key' ≠ key) : lookup (override entries key v) key' = lookup entries key' := by
  have hnew : [(Value.text key, v)].find? (·.1.isText key') = none := by simp [isText_of_ne isText_text hne]
  rw [lookup_eq, lookup_eq, override_eq, List.find?_append, hnew, Option.or_none, List.find?_filter]
  congr 2
  funext entry
  cases hk : entry.1.isText key with
  | false => simp
  | true => simp [isText_of_ne hk hne]

/-- The value of a known key has no part in which keys are unknown. -/
theorem unknownKeys_override (hkey : key ∈ keys) : unknownKeys (override entries key v) = unknownKeys entries := by
  have hknown : ∀ k : Value, k.isText key = true → keys.any k.isText = true :=
    fun k hk => List.any_eq_true.2 ⟨key, hkey, hk⟩
  have hnew : [Value.text key].filter (fun k => !keys.any k.isText) = [] := by
    simp [hknown _ isText_text]
  rw [unknownKeys, unknownKeys, override_eq, List.map_append, List.filter_append, List.map_singleton, hnew,
    List.append_nil, List.filter_map, List.filter_map, List.filter_filter]
  congr 2
  funext entry
  cases hk : entry.1.isText key with
  | false => simp
  | true => simp [hknown _ hk]

/-- The draft with another ceiling is the old one with this ceiling. -/
theorem Draft.ofEntries_override :
    Draft.ofEntries (override entries ceilingKey v) = { Draft.ofEntries entries with maxVariables := v } := by
  unfold Draft.ofEntries
  rw [lookup_override_self, lookup_override_of_ne (by decide), lookup_override_of_ne (by decide)]
  rfl

/-! ## What a replaced ceiling leaves alone -/

/-- Everything that the entries set besides the ceiling is in order: they have no unknown keys, and the style and
the switch for steps are those of the settings. -/
structure SoundButCeiling (entries : List (Value × Value)) (s : Settings) : Prop where
  known : unknownKeys entries = []
  style : checkStyle (Draft.ofEntries entries).style = .ok s.style
  steps : checkSteps (Draft.ofEntries entries).showSteps = .ok s.showSteps

/-- A draft is accepted setting by setting. -/
theorem Draft.check_eq_ok_iff {d : Draft} :
    d.check = .ok s ↔ checkCeiling d.maxVariables = .ok s.maxVariables ∧ checkStyle d.style = .ok s.style ∧
      checkSteps d.showSteps = .ok s.showSteps := by
  unfold Draft.check
  simp only [Outcome.bind_eq_ok_iff]
  constructor
  · rintro ⟨n, hn, style, hstyle, showSteps, hsteps, h⟩
    cases h
    exact ⟨hn, hstyle, hsteps⟩
  · rintro ⟨hn, hstyle, hsteps⟩
    exact ⟨_, hn, _, hstyle, _, hsteps, rfl⟩

/-- Entries give settings exactly if their ceiling is in order and the rest is, too. -/
theorem ofEntries_eq_ok_iff :
    ofEntries entries = .ok s ↔
      checkCeiling (Draft.ofEntries entries).maxVariables = .ok s.maxVariables ∧ SoundButCeiling entries s := by
  constructor
  · intro h
    by_cases hkeys : unknownKeys entries = []
    · rw [ofEntries_of_known hkeys] at h
      obtain ⟨hceiling, hstyle, hsteps⟩ := Draft.check_eq_ok_iff.1 h
      exact ⟨hceiling, hkeys, hstyle, hsteps⟩
    · cases htexts : textsOf (unknownKeys entries) with
      | some texts =>
        rw [ofEntries_of_texts hkeys htexts] at h
        cases h
      | none =>
        rw [ofEntries_of_no_texts htexts] at h
        cases h
  · rintro ⟨hceiling, hkeys, hstyle, hsteps⟩
    rw [ofEntries_of_known hkeys]
    exact Draft.check_eq_ok_iff.2 ⟨hceiling, hstyle, hsteps⟩

/-- A replaced ceiling neither repairs nor breaks anything else. -/
theorem soundButCeiling_override_iff :
    SoundButCeiling (override entries ceilingKey v) s ↔ SoundButCeiling entries s := by
  have hkeys : unknownKeys (override entries ceilingKey v) = unknownKeys entries := unknownKeys_override (by decide)
  constructor
  · rintro ⟨hknown, hstyle, hsteps⟩
    rw [Draft.ofEntries_override] at hstyle hsteps
    exact ⟨hkeys ▸ hknown, hstyle, hsteps⟩
  · rintro ⟨hknown, hstyle, hsteps⟩
    refine ⟨hkeys.trans hknown, ?_, ?_⟩
    · rw [Draft.ofEntries_override]
      exact hstyle
    · rw [Draft.ofEntries_override]
      exact hsteps

/-- An integer is a ceiling exactly within the bounds. -/
theorem checkCeiling_int_eq_ok_iff : checkCeiling (.int n) = .ok m ↔ (1 ≤ n ∧ n ≤ hardCeiling) ∧ m = n := by
  by_cases hbounds : 1 ≤ n ∧ n ≤ hardCeiling
  · simp [checkCeiling, hbounds, eq_comm]
  · simp [checkCeiling, hbounds]

/-- Entries whose ceiling is replaced by an integer give settings exactly if the integer is within the bounds and
everything else was in order before. -/
theorem ofEntries_override_eq_ok_iff :
    ofEntries (override entries ceilingKey (.int n)) = .ok s ↔
      (1 ≤ n ∧ n ≤ hardCeiling) ∧ s.maxVariables = n ∧ SoundButCeiling entries s := by
  rw [ofEntries_eq_ok_iff, Draft.ofEntries_override, checkCeiling_int_eq_ok_iff, soundButCeiling_override_iff,
    and_assoc]

/-- A ceiling that is refused is refused alike as the only entry. -/
theorem ofEntries_ceiling_alone (h : checkCeiling v = .error e) : ofEntries [(.text ceilingKey, v)] = .error e := by
  have hknown : unknownKeys (override [] ceilingKey v) = [] := unknownKeys_override (by decide)
  exact (ofEntries_of_known hknown).trans (Draft.check_ceiling_alone h)

/-- If all but the ceiling is in order, then a failure is the fault of a ceiling among the entries, which is
refused alike as the only entry. -/
theorem exists_ceiling_of_error (hsound : SoundButCeiling entries s) (h : ofEntries entries = .error e) :
    ∃ v f, lookup entries ceilingKey = some v ∧ e = .settings f ∧
      ofEntries [(.text ceilingKey, v)] = .error (.settings f) := by
  have hceiling : checkCeiling (Draft.ofEntries entries).maxVariables = .error e := by
    rw [ofEntries_of_known hsound.known] at h
    rcases Outcome.bind_eq_error_iff.1 h with h | ⟨n, hn, -⟩
    · exact h
    · have hok : (Draft.ofEntries entries).check = .ok ⟨n, s.style, s.showSteps⟩ :=
        Draft.check_eq_ok_iff.2 ⟨hn, hsound.style, hsound.steps⟩
      rw [h] at hok
      cases hok
  obtain ⟨f, rfl⟩ := checkCeiling_faults e hceiling
  cases hlookup : lookup entries ceilingKey with
  | none =>
    -- Without an entry the ceiling is the default, which is within the bounds.
    simp only [Draft.ofEntries, hlookup, Option.getD_none] at hceiling
    cases hceiling
  | some v =>
    simp only [Draft.ofEntries, hlookup, Option.getD_some] at hceiling
    exact ⟨v, f, rfl, rfl, ofEntries_ceiling_alone hceiling⟩

/-! ## Loading with and without a ceiling in the environment -/

/-- Without a ceiling in the environment, the entries of the file are checked as they are. -/
theorem load_unset_eq :
    load read { w with ceiling := none } path = document read w path >>= fun (_, entries) => ofEntries entries := rfl

/-- With a ceiling in the environment that is an integer, it replaces the one of the file before the check. -/
theorem load_set_eq {t : String} (ht : Text.integer? t.toList = some n) :
    load read { w with ceiling := some t } path =
      document read w path >>= fun (_, entries) => ofEntries (override entries ceilingKey (.int n)) := by
  have hne : t ≠ "" := by
    rintro rfl
    cases ht
  have hoverridden : ∀ entries, overridden { w with ceiling := some t } entries =
      .ok (override entries ceilingKey (.int n)) := by
    intro entries
    simp only [overridden, setting?_some hne, ht]
  simp only [load, hoverridden]
  rfl

/-- With a ceiling in the environment that is no integer, loading gives no settings. -/
theorem load_set_ne_ok {t : String} (hne : t ≠ "") (ht : Text.integer? t.toList = none) :
    load read { w with ceiling := some t } path ≠ .ok s := by
  intro h
  obtain ⟨⟨l, entries⟩, -, h⟩ := Outcome.bind_eq_ok_iff.1 h
  simp only [overridden, setting?_some hne, ht] at h
  cases h

/-- The ceiling in the environment replaces the ceiling of the file and nothing else. Let the variable hold a text
that is read as the integer `n`. If `n` is within the bounds, then

* where loading without it gives settings, loading with it gives these settings with `n` as the ceiling, and
* where loading with it gives settings and without it does not, the file has a ceiling that is refused for a fault
  of its own, and loading without the variable fails with this fault.

If `n` is out of bounds, or if the variable holds something that is no integer, then loading gives no
settings. -/
theorem ceiling_override (read : String → Option Value) (w : World) (path : Option String) (t : String) :
    (∀ n, Text.integer? t.toList = some n →
      (1 ≤ n ∧ n ≤ hardCeiling →
        (∀ s, load read { w with ceiling := none } path = .ok s →
          load read { w with ceiling := some t } path = .ok { s with maxVariables := n }) ∧
        (∀ s e, load read { w with ceiling := some t } path = .ok s →
          load read { w with ceiling := none } path = .error e →
          ∃ l entries v f, document read w path = .ok (l, entries) ∧ lookup entries ceilingKey = some v ∧
            e = .settings f ∧ ofEntries [(.text ceilingKey, v)] = .error (.settings f))) ∧
      (¬ (1 ≤ n ∧ n ≤ hardCeiling) → ∀ s, load read { w with ceiling := some t } path ≠ .ok s)) ∧
    (t ≠ "" → Text.integer? t.toList = none → ∀ s, load read { w with ceiling := some t } path ≠ .ok s) := by
  refine ⟨fun n ht => ⟨fun hbounds => ⟨?keeps, ?masks⟩, ?outOfBounds⟩, ?noInteger⟩
  case keeps =>
    intro s h
    rw [load_unset_eq] at h
    obtain ⟨⟨l, entries⟩, hdocument, h⟩ := Outcome.bind_eq_ok_iff.1 h
    obtain ⟨-, hsound⟩ := ofEntries_eq_ok_iff.1 h
    rw [load_set_eq ht, hdocument]
    exact ofEntries_override_eq_ok_iff.2 ⟨hbounds, rfl, hsound.known, hsound.style, hsound.steps⟩
  case masks =>
    intro s e hset hunset
    rw [load_set_eq ht] at hset
    obtain ⟨⟨l, entries⟩, hdocument, hset⟩ := Outcome.bind_eq_ok_iff.1 hset
    -- The replaced ceiling says nothing about the one of the file, but all else is known to be in order.
    obtain ⟨-, -, hsound⟩ := ofEntries_override_eq_ok_iff.1 hset
    rw [load_unset_eq, hdocument] at hunset
    obtain ⟨v, f, hlookup, he, halone⟩ := exists_ceiling_of_error hsound hunset
    exact ⟨l, entries, v, f, hdocument, hlookup, he, halone⟩
  case outOfBounds =>
    intro hbounds s h
    rw [load_set_eq ht] at h
    obtain ⟨⟨l, entries⟩, -, h⟩ := Outcome.bind_eq_ok_iff.1 h
    exact hbounds (ofEntries_override_eq_ok_iff.1 h).1
  case noInteger =>
    intro hne ht s
    exact load_set_ne_ok hne ht

/-- With " 5 " in the environment, a file with a ceiling of 3 gives a ceiling of 5, and so does one with a ceiling
of 99, which is refused without it; both keep the style. "21" and "five" give no settings, and neither does a 5
behind the blank U+001C. -/
theorem ceiling_override_five :
    let sound := World.ofFile "c.yaml" "max_variables: 3\noutput_style: VF\n"
    let masked := World.ofFile "c.yaml" "max_variables: 99\noutput_style: VF\n"
    load Yaml.read { sound with ceiling := some " 5 " } (some "c.yaml") = .ok ⟨5, .vraiFaux, false⟩ ∧
      load Yaml.read { masked with ceiling := some " 5 " } (some "c.yaml") = .ok ⟨5, .vraiFaux, false⟩ ∧
      (∃ l entries v f, document Yaml.read masked (some "c.yaml") = .ok (l, entries) ∧
        lookup entries ceilingKey = some v ∧ load Yaml.read masked (some "c.yaml") = .error (.settings f) ∧
        ofEntries [(.text ceilingKey, v)] = .error (.settings f)) ∧
      (∀ s, load Yaml.read { sound with ceiling := some "21" } (some "c.yaml") ≠ .ok s) ∧
      (∀ s, load Yaml.read { sound with ceiling := some "five" } (some "c.yaml") ≠ .ok s) ∧
      ∀ s, load Yaml.read { sound with ceiling := some "\x1c5" } (some "c.yaml") ≠ .ok s := by
  intro sound masked
  obtain ⟨hkeeps, -⟩ := ceiling_override Yaml.read sound (some "c.yaml") " 5 "
  obtain ⟨hmasks, -⟩ := ceiling_override Yaml.read masked (some "c.yaml") " 5 "
  obtain ⟨hlarge, -⟩ := ceiling_override Yaml.read sound (some "c.yaml") "21"
  obtain ⟨-, hword⟩ := ceiling_override Yaml.read sound (some "c.yaml") "five"
  obtain ⟨-, hseparator⟩ := ceiling_override Yaml.read sound (some "c.yaml") "\x1c5"
  have hmasked : load Yaml.read { masked with ceiling := some " 5 " } (some "c.yaml") = .ok ⟨5, .vraiFaux, false⟩ :=
    Outcome.toOption_eq_some_iff.1 (by decide +kernel)
  refine ⟨?_, hmasked, ?_, (hlarge 21 (by decide +kernel)).2 (by decide), hword (by decide) (by decide +kernel),
    hseparator (by decide) (by decide +kernel)⟩
  · have hsound : load Yaml.read sound (some "c.yaml") = .ok ⟨3, .vraiFaux, false⟩ :=
      Outcome.toOption_eq_some_iff.1 (by decide +kernel)
    exact ((hkeeps 5 (by decide +kernel)).1 (by decide)).1 _ hsound
  · obtain ⟨e, hload⟩ : ∃ e, load Yaml.read masked (some "c.yaml") = .error e :=
      Outcome.exists_eq_error_of_eq_none (by decide +kernel)
    obtain ⟨l, entries, v, f, hdocument, hlookup, rfl, halone⟩ :=
      ((hmasks 5 (by decide +kernel)).1 (by decide)).2 _ e hmasked hload
    exact ⟨l, entries, v, f, hdocument, hlookup, hload, halone⟩

end Sentential.Settings
