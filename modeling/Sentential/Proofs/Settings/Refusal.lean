import Sentential.Cli.Run
import Sentential.Proofs.Settings.Shown
import Sentential.Proofs.Settings.Source

/-!
# Refused configurations

A stage of loading that fails should refuse the configuration: report a fault, which the command line answers
with an exit code of its own. Three places fail in another way. Unknown keys are listed in the fault, which needs
texts; a style is looked up among the known ones, which needs a scalar; and a fault shows the value that is at fault,
which needs integers that are not too long. Entries that fail there `Stumble`. They are the only entries that fail
without being refused (`ofEntries_stumbles_iff`), and no other stage does unless a directory stands where the file
should (`settings_refused_or_stumble`).
-/

namespace Sentential.Settings

open Outcome (FailsWith)

variable {read : String → Option Value} {w : World} {path : Option String} {l : Location}
  {entries : List (Value × Value)} {v : Value} {e : Failure} {f : Fault}

/-- The failure is a fault of the configuration, with a message or without one. -/
def Faulted (e : Failure) : Prop := ∃ f : Fault, e = .settings f

/-- The failure is a fault of the configuration that is reported. -/
def Refused (e : Failure) : Prop := ∃ (f : Fault) (message : String), e = .settings f ∧ f.message? = some message

/-- A fault is not reported exactly if the value that it shows has too many digits. -/
theorem not_refused_iff : ¬ Refused (.settings f) ↔ ∃ v, f.got? = some v ∧ v.Overlong := by
  rw [← Fault.message?_eq_none_iff]
  constructor
  · intro h
    apply Option.eq_none_iff_forall_ne_some.2
    intro message hmessage
    exact h ⟨f, message, rfl, hmessage⟩
  · rintro hnone ⟨_, message, ⟨⟩, hmessage⟩
    cases hnone.symm.trans hmessage

/-! ## Single settings -/

/-- A ceiling is set or at fault. -/
theorem checkCeiling_faults : FailsWith Faulted (checkCeiling v) := by
  unfold checkCeiling
  split
  · split
    · exact .ok _
    · exact .error ⟨_, rfl⟩
  · exact .error ⟨_, rfl⟩

/-- The switch for steps is set or at fault. -/
theorem checkSteps_faults : FailsWith Faulted (checkSteps v) := by
  unfold checkSteps
  split
  · exact .ok _
  · exact .error ⟨_, rfl⟩

/-- A style that is a scalar is set or at fault. -/
theorem checkStyle_faults (hv : v.isScalar = true) : FailsWith Faulted (checkStyle v) := by
  unfold checkStyle
  split
  · split
    · exact .ok _
    · exact .error ⟨_, rfl⟩
  · rw [if_pos hv]
    exact .error ⟨_, rfl⟩

/-- A style that is a collection cannot be looked up. -/
theorem checkStyle_of_not_scalar (hv : v.isScalar = false) : checkStyle v = .error .styleNotScalar := by
  cases v with
  | list items => rfl
  | set members => rfl
  | pairs entries => rfl
  | mapping entries => rfl
  | _ => cases hv

/-- A draft whose style is a scalar is accepted or at fault. -/
theorem Draft.check_faults {d : Draft} (hstyle : d.style.isScalar = true) : FailsWith Faulted d.check :=
  checkCeiling_faults.bind fun _ _ => (checkStyle_faults hstyle).bind fun _ _ =>
    checkSteps_faults.bind fun _ _ => .ok _

/-- A ceiling out of bounds is at fault. -/
theorem checkCeiling_of_out_of_range {n : Int} (h : ¬ (1 ≤ n ∧ n ≤ hardCeiling)) :
    checkCeiling (.int n) = .error (.settings (.ceilingOutOfRange n)) := if_neg h

/-- A ceiling that is refused is refused alike as the only entry. -/
theorem Draft.check_ceiling_alone (h : checkCeiling v = .error e) :
    (Draft.ofEntries [(.text ceilingKey, v)]).check = .error e := Outcome.bind_eq_error_iff.2 (.inl h)

/-- The check of a draft fails without a fault exactly if the ceiling is in order and the style cannot be looked up. -/
theorem Draft.check_not_faulted_iff {d : Draft} :
    (d.check = .error e ∧ ¬ Faulted e) ↔
      e = .styleNotScalar ∧ (∃ n, checkCeiling d.maxVariables = .ok n) ∧ d.style.isScalar = false := by
  constructor
  · rintro ⟨h, hfaulted⟩
    cases hstyle : d.style.isScalar with
    | true => exact absurd (Draft.check_faults hstyle e h) hfaulted
    | false =>
      rcases Outcome.bind_eq_error_iff.1 h with h | ⟨n, hn, h⟩
      · exact absurd (checkCeiling_faults e h) hfaulted
      · rw [checkStyle_of_not_scalar hstyle] at h
        exact ⟨(Except.error.inj h).symm, ⟨n, hn⟩, rfl⟩
  · rintro ⟨rfl, ⟨n, hn⟩, hstyle⟩
    refine ⟨Outcome.bind_eq_error_iff.2 (.inr ⟨n, hn, ?_⟩), nofun⟩
    exact Outcome.bind_eq_error_iff.2 (.inl (checkStyle_of_not_scalar hstyle))

/-! ## Entries -/

/-- Values cannot be listed as texts exactly if one of them is no text. -/
theorem textsOf_eq_none_iff {values : List Value} : textsOf values = none ↔ ∃ v ∈ values, v.text? = none := by
  induction values with
  | nil => simp [textsOf]
  | cons v values ih =>
    unfold textsOf at ih ⊢
    rw [List.mapM_cons]
    cases hv : v.text? with
    | none => simp [hv]
    | some s =>
      cases hvalues : values.mapM Value.text? with
      | none => simpa [hv, hvalues] using ih
      | some texts => simpa [hv, hvalues] using ih

/-- Entries that cannot be checked, and how the check fails: over an unknown key that is no text, or else, with
the ceiling in order, over a style that is a collection, or over a fault that shows a value with too many digits. -/
inductive Stumbles (entries : List (Value × Value)) : Failure → Prop
  | keys {k : Value} (hk : k ∈ unknownKeys entries) (htext : k.text? = none) : Stumbles entries .keysNotText
  | style {n : Int} (hkeys : unknownKeys entries = [])
      (hceiling : checkCeiling (Draft.ofEntries entries).maxVariables = .ok n)
      (hstyle : (Draft.ofEntries entries).style.isScalar = false) : Stumbles entries .styleNotScalar
  | digits {f : Fault} {v : Value} (hkeys : unknownKeys entries = [])
      (hcheck : (Draft.ofEntries entries).check = .error (.settings f)) (hgot : f.got? = some v)
      (hlong : v.Overlong) : Stumbles entries (.settings f)

/-- Without unknown keys, the check of entries is the check of their draft. -/
theorem ofEntries_of_known (h : unknownKeys entries = []) : ofEntries entries = (Draft.ofEntries entries).check := by
  unfold ofEntries
  rw [h]

/-- Unknown keys that are texts are refused with their list. -/
theorem ofEntries_of_texts {texts : List String} (h : unknownKeys entries ≠ [])
    (htexts : textsOf (unknownKeys entries) = some texts) :
    ofEntries entries = .error (.settings (.unknownKeys (texts.mergeSort fun a b => decide (a ≤ b)))) := by
  unfold ofEntries
  split
  · contradiction
  · rw [htexts]

/-- Unknown keys that are not all texts have no list. -/
theorem ofEntries_of_no_texts (h : textsOf (unknownKeys entries) = none) : ofEntries entries = .error .keysNotText := by
  unfold ofEntries
  split
  next hkeys =>
    rw [hkeys] at h
    cases h
  next => rw [h]

/-- Entries fail without being refused exactly if they stumble. -/
theorem ofEntries_stumbles_iff : (ofEntries entries = .error e ∧ ¬ Refused e) ↔ Stumbles entries e := by
  constructor
  · rintro ⟨h, hrefused⟩
    by_cases hkeys : unknownKeys entries = []
    · rw [ofEntries_of_known hkeys] at h
      by_cases hfaulted : Faulted e
      · obtain ⟨f, rfl⟩ := hfaulted
        obtain ⟨v, hgot, hlong⟩ := not_refused_iff.1 hrefused
        exact .digits hkeys h hgot hlong
      · obtain ⟨rfl, ⟨n, hn⟩, hstyle⟩ := Draft.check_not_faulted_iff.1 ⟨h, hfaulted⟩
        exact .style hkeys hn hstyle
    · cases htexts : textsOf (unknownKeys entries) with
      | some texts =>
        rw [ofEntries_of_texts hkeys htexts] at h
        exact absurd ⟨_, _, (Except.error.inj h).symm, rfl⟩ hrefused
      | none =>
        rw [ofEntries_of_no_texts htexts] at h
        obtain ⟨k, hk, htext⟩ := textsOf_eq_none_iff.1 htexts
        cases h
        exact .keys hk htext
  · intro h
    cases h with
    | keys hk htext => exact ⟨ofEntries_of_no_texts (textsOf_eq_none_iff.2 ⟨_, hk, htext⟩), nofun⟩
    | style hkeys hceiling hstyle =>
      obtain ⟨hcheck, -⟩ := Draft.check_not_faulted_iff.2 ⟨rfl, ⟨_, hceiling⟩, hstyle⟩
      rw [ofEntries_of_known hkeys]
      exact ⟨hcheck, nofun⟩
    | digits hkeys hcheck hgot hlong =>
      rw [ofEntries_of_known hkeys]
      exact ⟨hcheck, not_refused_iff.2 ⟨_, hgot, hlong⟩⟩

/-! ## Loading -/

/-- The entries that loading checks: those of the file, with the ceiling that the environment sets. -/
def entriesToCheck (read : String → Option Value) (w : World) (path : Option String) :
    Outcome (List (Value × Value)) := do
  let (_, entries) ← document read w path
  overridden w entries

theorem load_eq_bind : load read w path = entriesToCheck read w path >>= ofEntries := by
  unfold load entriesToCheck
  rw [bind_assoc]

/-- A source is found, absent, or refused. -/
theorem source_refuses : FailsWith Refused (w.source path) := by
  rw [World.source_eq]
  cases w.entry (w.sought path).location with
  | some found => exact .ok _
  | none =>
    cases w.sought path with
    | byCaller p => exact .error ⟨_, _, rfl, rfl⟩
    | byEnvironment p => exact .error ⟨_, _, rfl, rfl⟩
    | byDefault l => exact .ok _

/-- A document has entries or is refused. -/
theorem sectionOf_refuses : FailsWith Refused (sectionOf l v) := by
  unfold sectionOf
  split
  · exact .ok _
  · split
    · exact .ok _
    · exact .ok _
    · exact .error ⟨_, _, rfl, rfl⟩
  · exact .error ⟨_, _, rfl, rfl⟩

/-- A file has entries or is refused. -/
theorem readEntry_refuses {text : String} : FailsWith Refused (readEntry read l (.file text)) := by
  simp only [readEntry]
  cases read text with
  | some v => exact sectionOf_refuses
  | none => exact .error ⟨_, _, rfl, rfl⟩

/-- The ceiling in the environment is taken over or refused. -/
theorem overridden_refuses : FailsWith Refused (overridden w entries) := by
  unfold overridden
  split
  · split
    · exact .ok _
    · exact .error ⟨_, _, rfl, rfl⟩
  · exact .ok _

/-- Up to the check of the entries, loading goes on or refuses, unless a directory stands for the file. -/
theorem entriesToCheck_refuses (hfile : ∀ l, w.source path ≠ .ok (some (l, .directory))) :
    FailsWith Refused (entriesToCheck read w path) := by
  have hdocument : FailsWith Refused (document read w path) := by
    refine source_refuses.bind fun found hfound => ?_
    match found with
    | none => exact .ok _
    | some (l, .directory) => exact absurd hfound (hfile l)
    | some (l, .file text) => exact readEntry_refuses.bind fun _ _ => .ok _
  exact hdocument.bind fun _ _ => overridden_refuses

/-- Loading fails over entries that stumble. -/
theorem load_of_stumbles (hentries : entriesToCheck read w path = .ok entries) (hstumbles : Stumbles entries e) :
    load read w path = .error e := by
  rw [load_eq_bind, hentries]
  exact (ofEntries_stumbles_iff.2 hstumbles).1

/-- Loading gives settings, or refuses the configuration, or meets entries that stumble. -/
theorem load_cases (read : String → Option Value) (hfile : ∀ l, w.source path ≠ .ok (some (l, .directory))) :
    (∃ s, load read w path = .ok s) ∨
      (∃ (f : Fault) (message : String), load read w path = .error (.settings f) ∧ f.message? = some message) ∨
      ∃ entries e, entriesToCheck read w path = .ok entries ∧ Stumbles entries e := by
  cases hload : load read w path with
  | ok s => exact .inl ⟨s, rfl⟩
  | error e =>
    refine .inr ?_
    by_cases hrefused : Refused e
    · obtain ⟨f, message, rfl, hmessage⟩ := hrefused
      exact .inl ⟨f, message, rfl, hmessage⟩
    · rw [load_eq_bind] at hload
      rcases Outcome.bind_eq_error_iff.1 hload with h | ⟨entries, hentries, h⟩
      · exact absurd (entriesToCheck_refuses hfile e h) hrefused
      · exact .inr ⟨entries, e, hentries, ofEntries_stumbles_iff.1 ⟨h, hrefused⟩⟩

/-! ## One file -/

/-- A world with one file, and nothing in the environment. -/
def World.ofFile (name text : String) : World where
  entry l := if l = .path (Path.ofText name) then some (.file text) else none
  configFile := none
  ceiling := none
  defaultFile := .shipped

theorem World.source_ofFile (name text : String) :
    (ofFile name text).source (some name) = .ok (some (.path (Path.ofText name), .file text)) := by
  simp [source, ofFile]

/-- The caller who names the one file gets no directory. -/
theorem World.source_ofFile_ne (name text : String) (l : Location) :
    (ofFile name text).source (some name) ≠ .ok (some (l, .directory)) := by
  rw [source_ofFile]
  nofun

end Sentential.Settings

namespace Sentential.Cli

open Settings

/-- The reply to an invocation whose configuration is refused: no output, and the message of the fault. -/
structure Reply.RefusesSettings (reply : Reply) (message : String) : Prop where
  exit_eq : reply.exit = exitSettings
  output_eq : reply.output = ""
  error_eq : reply.error = some message

variable {i : Invocation} {read : String → Option Value} {w : World}

/-- A refused configuration is answered. -/
theorem Invocation.exists_run_of_refused {f : Settings.Fault} {message : String}
    (h : load read w i.config = .error (.settings f)) (hmessage : f.message? = some message) :
    ∃ reply, i.run read w = .ok reply ∧ reply.RefusesSettings message := by
  simp only [run, h, hmessage]
  exact ⟨_, rfl, rfl, rfl, rfl⟩

/-- Entries that stumble have no answer. -/
theorem Invocation.run_of_stumbles {entries : List (Value × Value)} {e : Failure}
    (hentries : entriesToCheck read w i.config = .ok entries) (hstumbles : Stumbles entries e) :
    i.run read w = .error e := by
  have hload := load_of_stumbles hentries hstumbles
  cases hstumbles with
  | keys => simp only [run, hload]
  | style => simp only [run, hload]
  | digits _ _ hgot hlong =>
    have hmessage := Fault.message?_eq_none_iff.2 ⟨_, hgot, hlong⟩
    simp only [run, hload, hmessage]

/-- An invocation that finds a file for its configuration, or none, gets its settings, or is answered with the
message of the fault of the configuration and the exit code for it, unless the entries that it finds stumble. If they
do, then loading fails as they do, and there is no answer. -/
theorem settings_refused_or_stumble (i : Invocation) (read : String → Option Value) (w : World)
    (hfile : ∀ l, w.source i.config ≠ .ok (some (l, .directory))) :
    ((∃ s, load read w i.config = .ok s) ∨
      (∃ f message reply, load read w i.config = .error (.settings f) ∧ f.message? = some message ∧
        i.run read w = .ok reply ∧ reply.RefusesSettings message) ∨
      ∃ entries e, entriesToCheck read w i.config = .ok entries ∧ Stumbles entries e) ∧
    ∀ entries e, entriesToCheck read w i.config = .ok entries → Stumbles entries e →
      load read w i.config = .error e ∧ i.run read w = .error e := by
  refine ⟨?_, fun entries e hentries hstumbles =>
    ⟨load_of_stumbles hentries hstumbles, Invocation.run_of_stumbles hentries hstumbles⟩⟩
  rcases load_cases read hfile with hload | ⟨f, message, hload, hmessage⟩ | hstumbles
  · exact .inl hload
  · obtain ⟨reply, hrun, hrefuses⟩ := Invocation.exists_run_of_refused hload hmessage
    exact .inr (.inl ⟨f, message, reply, hload, hmessage, hrun, hrefuses⟩)
  · exact .inr (.inr hstumbles)

/-- A file whose one key is a number stumbles over the key, and one whose ceiling is a hexadecimal number of too many
decimal digits over the message. -/
theorem settings_refused_or_stumble_keys :
    let i : Invocation := ⟨some "c.yaml", false, false, .normalize "P"⟩
    let w := World.ofFile "c.yaml" "1: 2\n"
    let zeros := String.ofList (List.replicate 3600 '0')
    let w' := World.ofFile "c.yaml" ("max_variables: 0x1" ++ zeros ++ "\n")
    let n : Int := Nat.pow 16 3600
    let read : String → Option Value := fun _ => some (.mapping [(.text ceilingKey, .int n)])
    (∀ l, w.source (some "c.yaml") ≠ .ok (some (l, .directory))) ∧
      (∃ entries, entriesToCheck Yaml.read w (some "c.yaml") = .ok entries ∧ Stumbles entries .keysNotText ∧
        i.run Yaml.read w = .error .keysNotText) ∧
      (∀ l, w'.source (some "c.yaml") ≠ .ok (some (l, .directory))) ∧
      ∃ entries f, entriesToCheck read w' (some "c.yaml") = .ok entries ∧ Stumbles entries (.settings f) ∧
        load read w' (some "c.yaml") = .error (.settings f) ∧ f.message? = none ∧
        i.run read w' = .error (.settings f) := by
  intro i w zeros w' n read
  have hfile := World.source_ofFile_ne "c.yaml" "1: 2\n"
  have hfile' := World.source_ofFile_ne "c.yaml" ("max_variables: 0x1" ++ zeros ++ "\n")
  refine ⟨hfile, ?_, hfile', ?_⟩
  · have hfails : (match load Yaml.read w (some "c.yaml") with
        | .error .keysNotText => true
        | _ => false) = true := by decide +kernel
    obtain ⟨hcases, hstumble⟩ := settings_refused_or_stumble i Yaml.read w hfile
    rcases hcases with ⟨s, hload⟩ | ⟨f, _, _, hload, _⟩ | ⟨entries, e, hentries, hstumbles⟩
    · rw [hload] at hfails
      cases hfails
    · rw [hload] at hfails
      cases hfails
    · obtain ⟨hload, hrun⟩ := hstumble entries e hentries hstumbles
      rw [hload] at hfails
      cases hstumbles with
      | keys hk htext => exact ⟨entries, hentries, .keys hk htext, hrun⟩
      | style => cases hfails
      | digits => cases hfails
  · let entries : List (Value × Value) := [(.text ceilingKey, .int n)]
    have hentries : entriesToCheck read w' (some "c.yaml") = .ok entries := by
      rw [entriesToCheck, document, World.source_ofFile]
      rfl
    have hlong : (Value.int n).Overlong := .int (by decide +kernel)
    have hcheck := Draft.check_ceiling_alone (checkCeiling_of_out_of_range (n := n) (by decide +kernel))
    have hstumbles : Stumbles entries (.settings (.ceilingOutOfRange n)) := .digits (by decide +kernel) hcheck rfl hlong
    obtain ⟨-, hstumble⟩ := settings_refused_or_stumble i read w' hfile'
    obtain ⟨hload, hrun⟩ := hstumble entries _ hentries hstumbles
    exact ⟨entries, _, hentries, hstumbles, hload, Fault.message?_eq_none_iff.2 ⟨_, rfl, hlong⟩, hrun⟩

/-- Not every file that is read gives settings or is refused: one that sets the style to a list is neither. -/
theorem settings_not_always_refused :
    ¬ ∀ (read : String → Option Value) (w : World) (path : Option String),
      (∀ l, w.source path ≠ .ok (some (l, .directory))) →
        (∃ s, load read w path = .ok s) ∨
          ∃ (f : Settings.Fault) (message : String), load read w path = .error (.settings f) ∧
            f.message? = some message := by
  intro h
  have hfails : (match load Yaml.read (World.ofFile "c.yaml" "output_style: [TF]\n") (some "c.yaml") with
      | .error .styleNotScalar => true
      | _ => false) = true := by decide +kernel
  rcases h Yaml.read (World.ofFile "c.yaml" "output_style: [TF]\n") (some "c.yaml") (World.source_ofFile_ne _ _) with
    ⟨s, hload⟩ | ⟨f, _, hload, _⟩
  · rw [hload] at hfails
    cases hfails
  · rw [hload] at hfails
    cases hfails

end Sentential.Cli
