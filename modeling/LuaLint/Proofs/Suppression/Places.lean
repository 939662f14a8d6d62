import LuaLint.Proofs.Source.Lines
import LuaLint.Proofs.Suppression.Matching
import LuaLint.Proofs.Suppression.Verdict
import LuaLint.Proofs.Text.StrictUtf8

/-!
# The places where directives begin

A directive is found in the decoded text of a line. This module takes it back to the bytes: a line with a
directive has an offset at which the directive begins, and there stand two dashes (`inLine?_begins`). An
offset is a place in the source as a whole, and so it can be compared with the nodes of a tree.

A source in which no directive begins leaves every diagnostic (`unsuppressed_of_quiet`).
-/

namespace LuaLint

/-- The bytes from an offset on, up to the end of the line. -/
def Source.restOfLine (source : List UInt8) (offset : Nat) : List UInt8 :=
  (source.drop offset).takeWhile (· ≠ lineFeed)

namespace Directive

/-- A directive begins at the offset. -/
def BeginsAt (source : List UInt8) (offset : Nat) : Prop :=
  ∃ scope rules, atFront? scope (Utf8.decodeLenient (Source.restOfLine source offset)) = some rules

variable {scope : Scope} {rules : RuleSet} {text : List Char} {source line : List UInt8} {k : Nat}

/-! ## In the decoded text -/

/-- A directive begins with two dashes. -/
theorem dashes_of_atFront? (h : atFront? scope text = some rules) :
    ∃ more, text = '-' :: '-' :: more := by
  obtain ⟨after, dashes, -⟩ := Option.bind_eq_some_iff.mp h
  obtain ⟨run, rfl, folds⟩ := (afterWord_eq_some_iff _ _ _).mp dashes
  obtain ⟨a, rest, rfl, first, folds⟩ := List.map_eq_cons_iff.mp folds
  obtain ⟨b, rest, rfl, second, folds⟩ := List.map_eq_cons_iff.mp folds
  obtain rfl := List.map_eq_nil_iff.mp folds
  rw [eq_dash_of_fold first, eq_dash_of_fold second]
  exact ⟨after, rfl⟩

/-- What a search finds is at the front of some part of the text. -/
theorem find?_eq_some (h : find? scope text = some rules) :
    ∃ front back, text = front ++ back ∧ atFront? scope back = some rules := by
  induction text with
  | nil => cases h
  | cons c text ih =>
    rw [find?] at h
    split at h
    · rename_i here
      exact ⟨[], c :: text, rfl, here.trans h⟩
    · obtain ⟨front, back, rfl, here⟩ := ih h
      exact ⟨c :: front, back, rfl, here⟩

/-! ## In the bytes -/

/-- **A line with a directive has a place where the directive begins**, with two dashes. -/
theorem inLine?_begins (at_k : (Source.lines source)[k]? = some line)
    (here : inLine? scope line = some rules) :
    ∃ offset, Source.DashesAt source offset ∧ BeginsAt source offset := by
  obtain ⟨front, back, cut, begins⟩ := find?_eq_some here
  obtain ⟨more, rfl⟩ := dashes_of_atFront? begins
  obtain ⟨before, bytes, rfl, decoded⟩ := Utf8.decodeLenient_eq_append cut
  obtain ⟨others, rfl, later⟩ := Utf8.decodeLenient_eq_cons decoded (b := Source.dash) rfl
  obtain ⟨others, rfl, -⟩ := Utf8.decodeLenient_eq_cons later (b := Source.dash) rfl
  obtain ⟨unbroken, rest, whole, ends⟩ := Source.drop_lineStart at_k
  generalize bytes_eq : Source.dash :: Source.dash :: others = bytes at *
  have placed : source.drop (Source.lineStart source k + before.length) = bytes ++ rest := by
    rw [← List.drop_drop, whole, List.append_assoc, List.drop_left]
  have upToEnd : Source.restOfLine source (Source.lineStart source k + before.length) = bytes := by
    have inLine : ∀ b ∈ bytes, decide (b ≠ Source.lineFeed) = true := by
      intro b hb
      refine decide_eq_true fun feed => unbroken (List.mem_append_right _ ?_)
      rwa [← feed]
    rw [Source.restOfLine, placed, List.takeWhile_append_of_pos inLine]
    rcases ends with rfl | ⟨next, rfl⟩
    · simp
    · simp
  refine ⟨_, Source.DashesAt.of_drop (placed.trans (by rw [← bytes_eq]; rfl)), scope, rules, ?_⟩
  rw [upToEnd, decoded, begins]

/-! ## Nothing is dropped -/

/-- **A source in which no directive begins leaves every diagnostic.** -/
theorem unsuppressed_of_quiet
    (quiet : ∀ offset, Source.DashesAt source offset → ¬ BeginsAt source offset)
    (found : List Diagnostic) : unsuppressed source found = found := by
  have silent (scope : Scope) (line : List UInt8) (member : line ∈ Source.lines source) :
      inLine? scope line = none := by
    obtain ⟨k, at_k⟩ := List.mem_iff_getElem?.mp member
    refine Option.eq_none_iff_forall_ne_some.mpr fun rules here => ?_
    obtain ⟨offset, dashes, begins⟩ := inLine?_begins at_k here
    exact quiet offset dashes begins
  have file : (Suppressions.ofSource source).file = none := by
    simp only [Suppressions.ofSource, List.filterMap_eq_nil_iff.mpr (silent .file), List.getLast?_nil]
  have onLine (k : Nat) : (Suppressions.ofSource source).onLine (k + 1) = none := by
    rw [ofSource_onLine, Option.bind_eq_none_iff]
    intro line at_k
    exact silent .line line (List.mem_of_getElem? at_k)
  rw [unsuppressed_eq_filter, List.filter_eq_self]
  intro d _
  rw [dropped, Suppressions.drops, Source.position_line, file, onLine]
  rfl

end Directive

end LuaLint
