import LuaLint.Proofs.Files.Canonical
import LuaLint.Proofs.Settings.Reading
import LuaLint.Proofs.Text.StrictUtf8
import LuaLint.Settings.File
import Mathlib

/-!
# What comes of loading settings

Whether settings can be loaded hangs on what is in one file alone, the nearest file of settings.

* **A file that was found can be read** (`read_of_find`), so nothing else can go wrong with it than what
  is in it.
* **No file** (`load_of_none`): the settings are the default ones, and nothing is noted.
* **The nearest file** (`load_of_nearest`): settings come of it exactly if its bytes are the encoding of a
  text, and the text either is no document or is one in which all that is to be read and written can be. If it
  is no document the settings are the default ones with one warning, and else the ones that the document
  makes.
* **Bytes that are no text** (`load_not_encoded`): a file with the one byte `FF` leaves no settings at
  all, and nothing is noted. It is no document either, but it is not met with a warning as those are
  that are a text.
-/

namespace LuaLint.Settings

variable {limits : Toml.Limits} {recorded : Bool} {d : Disk} {start path : Path}

/-- The bytes are the encoding of a text. -/
def Encoded (bytes : List UInt8) : Prop := ∃ text : String, Utf8.encode text = bytes

/-- The settings without a file. -/
def defaults : Settings :=
  { selection := { select := none, ignore := [] }, standardLibrary := "lua51"
    severities := [], options := [] }

/-! ## The bytes -/

/-- Bytes that cannot be decoded strictly are the encoding of no text. -/
theorem decode?_eq_none_iff (bytes : List UInt8) : Utf8.decode? bytes = none ↔ ¬ Encoded bytes := by
  constructor
  · rintro refused ⟨text, rfl⟩
    have read : Utf8.decode? (Utf8.encode text) = some text.toList := by
      rw [Utf8.decode?_eq_some_iff, String.ofList_toList]
    rw [refused] at read
    cases read
  · intro none_encoded
    rcases read : Utf8.decode? bytes with _ | text
    · rfl
    · exact absurd ⟨_, Utf8.decode?_eq_some_iff.mp read⟩ none_encoded

/-- **A file of settings that was found can be read.** -/
theorem read_of_find (nearest : find? d start = some path) : ∃ bytes, d.read path = .ok bytes :=
  Disk.isFile_iff.mp (List.find?_some nearest)

/-! ## Loading -/

/-- Without a file of settings they are the default ones, and nothing is noted. -/
theorem load_of_none (h : find? d start = none) :
    load limits recorded d start = ⟨[], .ok defaults⟩ := by
  rw [load, h]
  rfl

/-- Bytes that encode no text leave no settings, and nothing is noted. -/
theorem load_of_not_encoded {bytes : List UInt8} (nearest : find? d start = some path)
    (read : d.read path = .ok bytes) (h : ¬ Encoded bytes) :
    load limits recorded d start = ⟨[], .error (.encoding path)⟩ := by
  have refused : Toml.read limits bytes = .error .encoding := by
    rw [Toml.read, (decode?_eq_none_iff bytes).mpr h]
  rw [load, nearest]
  simp only [readFrom, read, refused]

/-- The document in the encoding of a text is the document of the text. -/
theorem read_encode (limits : Toml.Limits) (text : String) : Toml.read limits (Utf8.encode text) =
    (Toml.document limits text.toList).mapError .stopped := by
  have decoded : Utf8.decode? (Utf8.encode text) = some text.toList := by
    rw [Utf8.decode?_eq_some_iff, String.ofList_toList]
  rw [Toml.read, decoded]

section text

variable {text : String} (nearest : find? d start = some path)
  (read : d.read path = .ok (Utf8.encode text))
include nearest read

/-- A text that is no document leaves the default settings, with a warning. -/
theorem load_of_flawed {flaw : Toml.Flaw}
    (h : Toml.document limits text.toList = .error (.flaw flaw)) :
    load limits recorded d start = ⟨[.settingsUnreadable path.text flaw.message], .ok defaults⟩ := by
  have stopped : Toml.read limits (Utf8.encode text) = .error (.stopped (.flaw flaw)) := by
    rw [read_encode, h]
    rfl
  rw [load, nearest]
  simp only [readFrom, read, stopped]
  rfl

/-- A text that the interpreter refuses to read leaves no settings, and nothing is noted. -/
theorem load_of_refused {refusal : Toml.Refusal}
    (h : Toml.document limits text.toList = .error (.refusal refusal)) :
    load limits recorded d start = ⟨[], .error (.refused refusal)⟩ := by
  have stopped : Toml.read limits (Utf8.encode text) = .error (.stopped (.refusal refusal)) := by
    rw [read_encode, h]
    rfl
  rw [load, nearest]
  simp only [readFrom, read, stopped]

/-- What comes of a document is what comes of its values. -/
theorem load_of_document {data : Table Toml.Value} (h : Toml.document limits text.toList = .ok data) :
    load limits recorded d start =
      ⟨.settingsLoaded path.text :: (ofTable limits recorded data).log,
        (ofTable limits recorded data).outcome.mapError .refused⟩ := by
  have accepted : Toml.read limits (Utf8.encode text) = .ok data := by
    rw [read_encode, h]
    rfl
  rw [load, nearest]
  simp only [readFrom, read, accepted]

/-- Settings come of a text that is no document, and of one in which all can be read and written. -/
theorem exists_load_of_text : (∃ settings, (load limits recorded d start).outcome = .ok settings) ↔
    (∃ flaw, Toml.document limits text.toList = .error (.flaw flaw)) ∨
      ∃ data, Toml.document limits text.toList = .ok data ∧ Expressible limits recorded data := by
  rcases document : Toml.document limits text.toList with (flaw | refusal) | data
  · rw [load_of_flawed nearest read document]
    simp
  · rw [load_of_refused nearest read document]
    simp
  · rw [load_of_document nearest read document]
    simp only [← exists_ofTable_iff, Outcome.mapError_eq_ok_iff, reduceCtorEq, exists_false, false_or,
      Except.ok.injEq, exists_eq_left']

end text

/-- **What comes of the nearest file of settings.** It can be read, and settings come of it exactly if its
bytes are the encoding of a text that either is no document, or is one in which all that is to be read and
written can be. A text that is no document makes the default settings with one warning. A document makes
the settings that its values make, and if they make none, or if the document itself can not be read, then
there are none for this reason. -/
theorem load_of_nearest (limits : Toml.Limits) (recorded : Bool) (nearest : find? d start = some path) :
    ∃ bytes, d.read path = .ok bytes ∧
      ((∃ settings, (load limits recorded d start).outcome = .ok settings) ↔
        ∃ text, Utf8.encode text = bytes ∧
          ((∃ flaw, Toml.document limits text.toList = .error (.flaw flaw)) ∨
            ∃ data, Toml.document limits text.toList = .ok data ∧ Expressible limits recorded data)) ∧
      (¬ Encoded bytes → load limits recorded d start = ⟨[], .error (.encoding path)⟩) ∧
      ∀ text, Utf8.encode text = bytes →
        (∀ flaw, Toml.document limits text.toList = .error (.flaw flaw) →
          ∃ warning, warning.level = .warning ∧
            load limits recorded d start = ⟨[warning], .ok defaults⟩) ∧
        (∀ refusal, Toml.document limits text.toList = .error (.refusal refusal) →
          load limits recorded d start = ⟨[], .error (.refused refusal)⟩) ∧
        ∀ data, Toml.document limits text.toList = .ok data →
          load limits recorded d start =
            ⟨.settingsLoaded path.text :: (ofTable limits recorded data).log,
              (ofTable limits recorded data).outcome.mapError .refused⟩ := by
  obtain ⟨bytes, read⟩ := read_of_find nearest
  refine ⟨bytes, read, ⟨?_, ?_⟩, load_of_not_encoded nearest read, ?_⟩
  · rintro ⟨settings, loaded⟩
    by_cases encoded : Encoded bytes
    · obtain ⟨text, rfl⟩ := encoded
      exact ⟨text, rfl, (exists_load_of_text nearest read).mp ⟨settings, loaded⟩⟩
    · rw [load_of_not_encoded nearest read encoded] at loaded
      cases loaded
  · rintro ⟨text, rfl, readable⟩
    exact (exists_load_of_text nearest read).mpr readable
  · rintro text rfl
    exact ⟨fun flaw document => ⟨_, rfl, load_of_flawed nearest read document⟩,
      fun refusal document => load_of_refused nearest read document,
      fun data document => load_of_document nearest read document⟩

/-- A disk with a file of settings in the root directory. -/
def diskWith (content : List UInt8) : Disk := { root := [(fileName, .file content)] }

/-- A statement that breaks off leaves the default settings with one warning. -/
theorem load_of_nearest_broken :
    let d := diskWith (Utf8.encode "std =")
    find? d (.absolute []) = some (.absolute [fileName]) ∧
      ∃ warning, warning.level = .warning ∧ load {} true d (.absolute []) = ⟨[warning], .ok defaults⟩ := by
  intro d
  have nearest : find? d (.absolute []) = some (.absolute [fileName]) := by cbv
  obtain ⟨bytes, read, -, -, cases⟩ := load_of_nearest {} true nearest
  have content : d.read (.absolute [fileName]) = .ok (Utf8.encode "std =") := by cbv
  obtain rfl : Utf8.encode "std =" = bytes := Except.ok.inj (content.symm.trans read)
  have stopped : (Toml.document {} "std =".toList).map (fun _ => ()) = .error (.flaw .value) := by
    decide +kernel
  exact ⟨nearest, (cases "std =" rfl).1 .value (Outcome.map_eq_error_iff.mp stopped)⟩

/-- **Bytes that encode no text leave no settings**, not even the default ones, and no warning. -/
theorem load_not_encoded :
    let d := diskWith [0xFF]
    find? d (.absolute []) = some (.absolute [fileName]) ∧
      load {} true d (.absolute []) = ⟨[], .error (.encoding (.absolute [fileName]))⟩ := by
  intro d
  have nearest : find? d (.absolute []) = some (.absolute [fileName]) := by cbv
  have read : d.read (.absolute [fileName]) = .ok [0xFF] := by cbv
  have refused : Utf8.decode? [0xFF] = none := by decide +kernel
  exact ⟨nearest, load_of_not_encoded nearest read ((decode?_eq_none_iff _).mp refused)⟩

end LuaLint.Settings
