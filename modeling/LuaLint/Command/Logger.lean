import LuaLint.Log

/-!
# The logger

Records of the log go to every sink that is installed. The sinks are kept by a **library** that the whole
process shares (`LogLibrary`): it knows a sink by a number, and asking it to remove a sink that is not
installed is an error. What is relied on beyond that is `LogLibrary.Lawful`: a new sink gets a number that
no sink had before, and each operation changes the sinks that it is about and no other.

The program removes all sinks when it is loaded. From then on it keeps the number of the one sink that it
installed for a verbose run, so that the next run can remove it.

`LogLibrary.numbered` is the library that the program is run with: it counts the sinks.
-/

namespace LuaLint

/-- There is no sink of the given number. -/
structure UnknownSink where
  number : Nat
deriving Repr, DecidableEq

/-- A library that keeps sinks, with states of type `σ`. -/
structure LogLibrary (σ : Type) where
  /-- The numbers of the installed sinks. -/
  installed : σ → List Nat
  /-- The numbers that sinks have or had. -/
  used : σ → List Nat
  /-- Installs a sink: its number, and the state then. -/
  add : σ → Nat × σ
  /-- Removes the sink of a number. -/
  remove : σ → Nat → Except UnknownSink σ
  /-- Removes all sinks. -/
  removeAll : σ → σ

/-- What a library for sinks promises. -/
structure LogLibrary.Lawful {σ : Type} (lib : LogLibrary σ) : Prop where
  /-- The number of a new sink was never used. -/
  add_unused : ∀ s, (lib.add s).1 ∉ lib.used s
  installed_add : ∀ s, lib.installed (lib.add s).2 = lib.installed s ++ [(lib.add s).1]
  used_add : ∀ s, lib.used (lib.add s).2 = lib.used s ++ [(lib.add s).1]
  /-- A sink that is installed can be removed, and the others stay. -/
  remove_installed : ∀ s number, number ∈ lib.installed s → ∃ s', lib.remove s number = .ok s' ∧
    lib.installed s' = (lib.installed s).erase number ∧ lib.used s' = lib.used s
  remove_unknown : ∀ s number, number ∉ lib.installed s → lib.remove s number = .error ⟨number⟩
  installed_removeAll : ∀ s, lib.installed (lib.removeAll s) = []
  used_removeAll : ∀ s, lib.used (lib.removeAll s) = lib.used s
  used_of_installed : ∀ s number, number ∈ lib.installed s → number ∈ lib.used s

/-! ## The program's part -/

/-- The sinks, and the one that the program knows of. -/
structure Logger (σ : Type) where
  sinks : σ
  /-- The sink of the last verbose run. -/
  verboseSink : Option Nat := none
deriving Repr, DecidableEq

namespace Logger

variable {σ : Type} (lib : LogLibrary σ)

/-- The logger when the program has been loaded. -/
def start (s : σ) : Logger σ := { sinks := lib.removeAll s }

/-- The logger without the sink of the last verbose run. -/
def reset (l : Logger σ) : Except UnknownSink (Logger σ) :=
  match l.verboseSink with
  | none => .ok l
  | some number => do return { sinks := ← lib.remove l.sinks number }

/-- The logger at the beginning of a run: the old sink goes, and a verbose run gets a new one. -/
def begin (l : Logger σ) (verbose : Bool) : Except UnknownSink (Logger σ) := do
  let l ← l.reset lib
  if verbose then
    let (number, sinks) := lib.add l.sinks
    return { sinks, verboseSink := some number }
  else return l

/-- Records are taken by some sink. -/
def recorded (l : Logger σ) : Bool := !(lib.installed l.sinks).isEmpty

/-- The copies of a record that are written, one for each sink. -/
def written (l : Logger σ) (e : LogEvent) : List LogEvent := (lib.installed l.sinks).map fun _ => e

end Logger

/-! ## Counted sinks -/

/-- Sinks that are counted. -/
structure NumberedSinks where
  installed : List Nat
  /-- The numbers below this one are used up. -/
  fresh : Nat
  lt_fresh : ∀ number ∈ installed, number < fresh

namespace NumberedSinks

/-- The sinks of a process in which nothing was done: there is one. -/
def initial : NumberedSinks := ⟨[0], 1, by decide⟩

/-- The sinks with one more. -/
def add (s : NumberedSinks) : NumberedSinks where
  installed := s.installed ++ [s.fresh]
  fresh := s.fresh + 1
  lt_fresh number there := by
    rcases List.mem_append.mp there with old | new
    · exact Nat.lt_succ_of_lt (s.lt_fresh number old)
    · exact List.mem_singleton.mp new ▸ Nat.lt_succ_self _

/-- The sinks without that of a number. -/
def erase (s : NumberedSinks) (number : Nat) : NumberedSinks where
  installed := s.installed.erase number
  fresh := s.fresh
  lt_fresh other there := s.lt_fresh other (List.mem_of_mem_erase there)

/-- No sinks, after those that were used. -/
def clear (s : NumberedSinks) : NumberedSinks where
  installed := []
  fresh := s.fresh
  lt_fresh _ none := absurd none List.not_mem_nil

end NumberedSinks

/-- The library that counts its sinks. -/
def LogLibrary.numbered : LogLibrary NumberedSinks where
  installed s := s.installed
  used s := List.range s.fresh
  add s := (s.fresh, s.add)
  remove s number :=
    if s.installed.contains number then .ok (s.erase number) else .error ⟨number⟩
  removeAll s := s.clear

end LuaLint
