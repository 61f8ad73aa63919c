import Sentential.Proofs.Outcome
import Sentential.Settings.Load
import Sentential.Yaml.Document

/-!
# One source of settings

Loading seeks one file: the one that the caller names, else the one that the environment names, else the
default file. The names alone decide which file that is, and what becomes of a missing file depends on who
named it. Besides this file, loading asks only for the ceiling in the environment (`load_congr`), so the
sources that lose have no influence on the settings, nor on the fault if there are none
(`load_reads_one_source`).
-/

namespace Sentential.Settings

/-- The file that loading seeks, by what names it. -/
inductive Sought where
  | byCaller (p : Path)
  | byEnvironment (p : Path)
  | byDefault (l : Location)

namespace Sought

/-- Where the file should be. -/
def location : Sought → Location
  | byCaller p => .path p
  | byEnvironment p => .path p
  | byDefault l => l

/-- What seeking comes to if the file is missing: only the default file may be. -/
def missing : Sought → Outcome (Option (Location × Entry))
  | byCaller p => .error (.settings (.fileMissing p.text))
  | byEnvironment p => .error (.settings (.namedFileMissing p.text))
  | byDefault _ => .ok none

end Sought

/-- A variable that is set to something has this value. -/
theorem setting?_some {s : String} (h : s ≠ "") : setting? (some s) = some s := if_neg h

/-- A variable that is unset or empty has no value. -/
theorem setting?_eq_none {v : Option String} (h : ∀ s, v = some s → s = "") : setting? v = none := by
  cases v with
  | none => rfl
  | some s => exact if_pos (h s rfl)

namespace World

/-- The file to seek. Nothing but the names is consulted. -/
def sought (w : World) (path : Option String) : Sought :=
  match path with
  | some s => .byCaller (Path.ofText s)
  | none =>
    match setting? w.configFile with
    | some s => .byEnvironment (Path.ofText s)
    | none => .byDefault w.defaultFile

variable {w w' : World} {s : String}

theorem sought_environment (h : w.configFile = some s) (hs : s ≠ "") :
    w.sought none = .byEnvironment (Path.ofText s) := by
  simp only [sought, h, setting?_some hs]

theorem sought_default (h : ∀ s, w.configFile = some s → s = "") : w.sought none = .byDefault w.defaultFile := by
  simp only [sought, setting?_eq_none h]

/-- The source is what stands at the one place where the file is sought. -/
theorem source_eq (w : World) (path : Option String) :
    w.source path =
      match w.entry (w.sought path).location with
      | some e => .ok (some ((w.sought path).location, e))
      | none => (w.sought path).missing := by
  cases path with
  | some s => rfl
  | none =>
    cases hname : setting? w.configFile with
    | some s =>
      simp only [source, sought, hname]
      rfl
    | none =>
      simp only [source, sought, hname, Sought.location, Sought.missing]
      cases w.entry w.defaultFile with
      | some e => rfl
      | none => rfl

end World

variable {read : String → Option Value} {w w' : World} {path path' : Option String}

/-- Settings depend on the ceiling in the environment, on which file is sought, and on what stands there. -/
theorem load_congr (hceiling : w'.ceiling = w.ceiling) (hsought : w'.sought path' = w.sought path)
    (hentry : w'.entry (w.sought path).location = w.entry (w.sought path).location) :
    load read w' path' = load read w path := by
  have hsource : w'.source path' = w.source path := by rw [World.source_eq, World.source_eq, hsought, hentry]
  have hdocument : document read w' path' = document read w path := by simp only [document, hsource]
  have hoverridden : overridden w' = overridden w := by
    funext entries
    simp only [overridden, hceiling]
  simp only [load, hdocument, hoverridden]

/-- A file that is named and missing is a fault of its own. -/
theorem load_of_missing {f : Fault} (hentry : w.entry (w.sought path).location = none)
    (hmissing : (w.sought path).missing = .error (.settings f)) : load read w path = .error (.settings f) := by
  have hsource : w.source path = .error (.settings f) := by rw [World.source_eq, hentry, ← hmissing]
  simp only [load, document, hsource]
  rfl

/-- The sources of settings do not leak into each other. Let two worlds have the same ceiling in the
environment. Loading comes to the same, settings or failure, if

* the caller names a file and the worlds have the same at its path, or
* the environment names the same file in both, and they have the same at its path, or
* the environment names no file in either, and they have the same as their default file,

whatever else is in the worlds. A file that the caller or the environment names is never passed over for
being missing, but is a fault. -/
theorem load_reads_one_source (read : String → Option Value) {w w' : World} (hceiling : w'.ceiling = w.ceiling) :
    (∀ s, w'.entry (.path (Path.ofText s)) = w.entry (.path (Path.ofText s)) →
      load read w' (some s) = load read w (some s)) ∧
    (∀ s, s ≠ "" → w.configFile = some s → w'.configFile = some s →
      w'.entry (.path (Path.ofText s)) = w.entry (.path (Path.ofText s)) → load read w' none = load read w none) ∧
    ((∀ s, w.configFile = some s → s = "") → (∀ s, w'.configFile = some s → s = "") →
      w'.defaultFile = w.defaultFile → w'.entry w.defaultFile = w.entry w.defaultFile →
      load read w' none = load read w none) ∧
    (∀ s, w.entry (.path (Path.ofText s)) = none →
      load read w (some s) = .error (.settings (.fileMissing (Path.ofText s).text))) ∧
    (∀ s, s ≠ "" → w.configFile = some s → w.entry (.path (Path.ofText s)) = none →
      load read w none = .error (.settings (.namedFileMissing (Path.ofText s).text))) := by
  refine ⟨?caller, ?environment, ?default, ?callerMissing, ?environmentMissing⟩
  case caller =>
    intro s hentry
    exact load_congr hceiling rfl hentry
  case environment =>
    intro s hs hfile hfile' hentry
    have hsought := World.sought_environment hfile hs
    refine load_congr hceiling ((World.sought_environment hfile' hs).trans hsought.symm) ?_
    rw [hsought]
    exact hentry
  case default =>
    intro hfile hfile' hdefault hentry
    have hsought := World.sought_default hfile
    refine load_congr hceiling ?_ ?_
    · rw [hsought, World.sought_default hfile', hdefault]
    · rw [hsought]
      exact hentry
  case callerMissing =>
    intro s hentry
    exact load_of_missing hentry rfl
  case environmentMissing =>
    intro s hs hfile hentry
    have hsought := World.sought_environment hfile hs
    refine load_of_missing ?_ ?_
    · rw [hsought]
      exact hentry
    · rw [hsought]
      rfl

/-- A file that the caller names, in a world without other sources and in one where the environment names a
file that is missing and the default file is broken. The ceiling is that of the environment, and the style is that
of the file. -/
theorem load_reads_one_source_named :
    let ownText := "max_variables: 3\noutput_style: VF\n"
    let w : World := ⟨fun l => if l = .path (Path.ofText "own.yaml") then some (.file ownText) else none,
      none, some "5", .shipped⟩
    let w' : World := ⟨fun l => if l = .path (Path.ofText "own.yaml") then some (.file ownText)
        else if l = .shipped then some (.file "- no mapping\n") else none,
      some "gone.yaml", some "5", .shipped⟩
    w'.ceiling = w.ceiling ∧
      load Yaml.read w (some "./own.yaml") = .ok ⟨5, .vraiFaux, false⟩ ∧
      load Yaml.read w' (some "./own.yaml") = .ok ⟨5, .vraiFaux, false⟩ ∧
      load Yaml.read w' none = .error (.settings (.namedFileMissing "gone.yaml")) := by
  intro ownText w w'
  have hceiling : w'.ceiling = w.ceiling := rfl
  have hload : load Yaml.read w (some "./own.yaml") = .ok ⟨5, .vraiFaux, false⟩ :=
    Outcome.toOption_eq_some_iff.1 (by decide +kernel)
  obtain ⟨hcaller, -, -, -, -⟩ := load_reads_one_source Yaml.read hceiling
  obtain ⟨-, -, -, -, henvironment⟩ := load_reads_one_source Yaml.read hceiling.symm
  refine ⟨hceiling, hload, (hcaller "./own.yaml" ?_).trans hload, ?_⟩
  · decide +kernel
  · exact henvironment "gone.yaml" (by decide) rfl (by decide +kernel)

end Sentential.Settings
