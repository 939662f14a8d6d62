import LuaLint.Proofs.Suppression.Written
import LuaLint.Proofs.Text.Idempotence
import Mathlib.Data.Finset.Basic
import Mathlib.Logic.Relation

/-!
# The set of ids that a list names

What a list of ids means is a set: it plays no part in which order ids are named, or how often. A list is
cut at its commas and each piece that is not blank names one id (`Names`), so the pieces decide the set
(`mem_idsOf_iff`).

* **All rules** (`ofList_eq_all_iff`): all rules are meant exactly if there is no list or no piece of it names
  an id. A list that is blank as a whole is no exception.
* **Normal ids** (`Names.normal`): an id that is named is not empty, has no comma in it and no blank at its
  ends, and is in lower case. So its text is read as the id again.
* **Other words** (`Reworded.namedIn_iff`): pieces can change places and be repeated, and blanks can be put
  around them and between them; each such change leaves which ids are named, and so does any number of
  them, made or taken back (`namedIn_iff_of_reworded`).
* **There and back** (`named_intercalate`): normal ids joined by commas name themselves.
-/

namespace LuaLint.RuleSet

open Directive (Blank IsId)

/-! ## Sets of ids -/

/-- The ids that are named, as a set; `none` if all rules are meant. -/
def named : RuleSet → Option (Finset String)
  | all => none
  | only ids => some ids.toFinset

theorem named_eq_none_iff (rules : RuleSet) : rules.named = none ↔ rules = all := by
  cases rules with
  | all => simp [named]
  | only ids => simp [named]

/-- The set that a list names is that of its ids, if there are any. -/
theorem named_ofList (list : List Char) :
    (ofList (some list)).named =
      if (idsOf list).toFinset = ∅ then none else some (idsOf list).toFinset := by
  rw [ofList_some]
  cases idsOf list with
  | nil => rfl
  | cons id ids =>
    rw [if_neg (by simp)]
    rfl

/-! ## Pieces -/

/-- The piece of a list names the id: it is not blank, and trimmed and in lower case it is the id. -/
def Names (piece : List Char) (id : String) : Prop :=
  ¬ Blank piece ∧ String.ofList (Text.lower (Text.trim piece)) = id

/-- One of the pieces names the id. -/
def NamedIn (pieces : List (List Char)) (id : String) : Prop := ∃ piece ∈ pieces, Names piece id

/-- **The ids in a list are those that its pieces name.** -/
theorem mem_idsOf_iff (list : List Char) (id : String) :
    id ∈ idsOf list ↔ NamedIn (Text.split ',' list) id := by
  simp only [idsOf, List.mem_map, List.mem_filter, NamedIn, Names]
  constructor
  · rintro ⟨_, ⟨⟨piece, hp, rfl⟩, solid⟩, rfl⟩
    refine ⟨piece, hp, fun blank => ?_, rfl⟩
    rw [Text.trim_eq_nil_iff.mpr blank] at solid
    cases solid
  · rintro ⟨piece, hp, solid, rfl⟩
    refine ⟨Text.trim piece, ⟨⟨piece, hp, rfl⟩, ?_⟩, rfl⟩
    rw [Bool.not_eq_true', List.isEmpty_eq_false_iff]
    exact mt Text.trim_eq_nil_iff.mp solid

/-- No id is named exactly if every piece is blank. -/
theorem idsOf_eq_nil_iff (list : List Char) :
    idsOf list = [] ↔ ∀ piece ∈ Text.split ',' list, Blank piece := by
  constructor
  · intro none piece hp
    by_contra solid
    have member := (mem_idsOf_iff list _).mpr ⟨piece, hp, solid, rfl⟩
    rw [none] at member
    cases member
  · intro blank
    refine List.eq_nil_iff_forall_not_mem.mpr fun id member => ?_
    obtain ⟨piece, hp, solid, -⟩ := (mem_idsOf_iff list id).mp member
    exact solid (blank piece hp)

/-- **All rules are meant exactly if no id is named.** -/
theorem ofList_eq_all_iff (raw : Option (List Char)) :
    ofList raw = all ↔
      raw = none ∨ ∃ list, raw = some list ∧ ∀ piece ∈ Text.split ',' list, Blank piece := by
  cases raw with
  | none => simp [ofList]
  | some list =>
    have none : ofList (some list) = all ↔ idsOf list = [] := by
      rw [ofList_some]
      cases idsOf list <;> simp
    simp [none, idsOf_eq_nil_iff]

/-- The set that is named is decided by which ids the pieces name. -/
theorem named_congr {list other : List Char}
    (same : ∀ id, NamedIn (Text.split ',' list) id ↔ NamedIn (Text.split ',' other) id) :
    (ofList (some list)).named = (ofList (some other)).named := by
  have ids : (idsOf list).toFinset = (idsOf other).toFinset := by
    ext id
    rw [List.mem_toFinset, List.mem_toFinset, mem_idsOf_iff, mem_idsOf_iff, same]
  rw [named_ofList, named_ofList, ids]

/-! ## Normal ids -/

/-- The form in which ids are kept. -/
structure Normal (id : String) : Prop where
  ne_empty : id ≠ ""
  no_comma : ',' ∉ id.toList
  trimmed : Text.Trimmed id.toList
  small : Text.lowercase id = id

/-- **An id is named in its normal form.** -/
theorem Names.normal {piece : List Char} {id : String} (h : Names piece id) (uncut : ',' ∉ piece) :
    Normal id := by
  obtain ⟨solid, rfl⟩ := h
  have nonempty : Text.lower (Text.trim piece) ≠ [] := by
    rw [Ne, Text.lower_eq_nil_iff, Text.trim_eq_nil_iff]
    exact solid
  refine ⟨?_, ?_, ?_, ?_⟩
  · intro empty
    apply nonempty
    rw [← String.toList_ofList (l := Text.lower (Text.trim piece)), empty]
    rfl
  · rw [String.toList_ofList]
    intro comma
    rcases (Text.mem_lower comma).2 with before | other
    · exact uncut (Text.mem_of_mem_trim before)
    · exact other.ne_comma rfl
  · rw [String.toList_ofList]
    exact (Text.trimmed_trim piece).lower
  · rw [Text.lowercase, String.toList_ofList, Text.lower_lower]

/-- The ids in a list are normal. -/
theorem normal_of_mem_idsOf {list : List Char} {id : String} (h : id ∈ idsOf list) : Normal id := by
  obtain ⟨piece, hp, names⟩ := (mem_idsOf_iff list id).mp h
  exact names.normal fun comma => (Text.mem_of_mem_split hp ',' comma).2 rfl

/-- A set that is named has an id in it, and normal ids only. -/
theorem normal_of_named {raw : Option (List Char)} {ids : Finset String}
    (h : (ofList raw).named = some ids) : ids.Nonempty ∧ ∀ id ∈ ids, Normal id := by
  cases raw with
  | none => cases h
  | some list =>
    rw [named_ofList] at h
    split at h
    · cases h
    · rename_i nonempty
      obtain rfl := Option.some.inj h
      refine ⟨Finset.nonempty_iff_ne_empty.mpr nonempty, fun id member => ?_⟩
      exact normal_of_mem_idsOf (List.mem_toFinset.mp member)

/-- An id of small letters, digits and underscores is normal. -/
theorem normal_of_isId {id : String} (h : IsId id) : Normal id := by
  refine ⟨?_, ?_, ⟨?_, ?_⟩, ?_⟩
  · rintro rfl
    exact h.1 rfl
  · intro comma
    exact (h.2 ',' comma).ne_comma rfl
  · intro c first
    exact (h.2 c (List.mem_of_mem_head? first)).isBlank_eq
  · intro c last
    exact (h.2 c (List.mem_of_getLast? last)).isBlank_eq
  · have same : id.toList.map Char.toLower = id.toList :=
      (List.map_congr_left fun c hc => (h.2 c hc).toLower_eq).trans (List.map_id _)
    rw [Text.lowercase, Text.lower_of_ascii fun c hc => (h.2 c hc).ascii, same, String.ofList_toList]

/-! ## The same list in other words -/

/-- A change of the pieces of a list that leaves what it names. -/
inductive Reworded : List (List Char) → List (List Char) → Prop
  /-- The pieces change places. -/
  | permuted {pieces pieces'} : pieces.Perm pieces' → Reworded pieces pieces'
  /-- A piece is put in once more. -/
  | repeated {front back piece} :
      piece ∈ front ++ back → Reworded (front ++ back) (front ++ piece :: back)
  /-- Blanks are put around a piece. -/
  | padded {front back before piece after} : Blank before → Blank after →
      Reworded (front ++ piece :: back) (front ++ (before ++ piece ++ after) :: back)
  /-- A blank piece is put in. -/
  | spaced {front back gap} : Blank gap → Reworded (front ++ back) (front ++ gap :: back)

theorem namedIn_append_cons_iff {front back : List (List Char)} {piece : List Char} {id : String} :
    NamedIn (front ++ piece :: back) id ↔ Names piece id ∨ NamedIn (front ++ back) id := by
  simp only [NamedIn, List.mem_append, List.mem_cons]
  constructor
  · rintro ⟨other, above | rfl | below, names⟩
    · exact .inr ⟨other, .inl above, names⟩
    · exact .inl names
    · exact .inr ⟨other, .inr below, names⟩
  · rintro (names | ⟨other, above | below, names⟩)
    · exact ⟨piece, .inr (.inl rfl), names⟩
    · exact ⟨other, .inl above, names⟩
    · exact ⟨other, .inr (.inr below), names⟩

/-- Blanks around a piece do not matter. -/
theorem names_padded_iff {before piece after : List Char} {id : String} (hb : Blank before)
    (ha : Blank after) : Names (before ++ piece ++ after) id ↔ Names piece id := by
  have trimmed := Text.trim_padded hb ha piece
  have blank : Blank (before ++ piece ++ after) ↔ Blank piece := by
    unfold Blank
    rw [← Text.trim_eq_nil_iff, ← Text.trim_eq_nil_iff, trimmed]
  rw [Names, Names, blank, trimmed]

/-- **One change leaves which ids are named.** -/
theorem Reworded.namedIn_iff {pieces pieces' : List (List Char)} (h : Reworded pieces pieces')
    (id : String) : NamedIn pieces id ↔ NamedIn pieces' id := by
  cases h with
  | permuted order =>
    unfold NamedIn
    simp only [order.mem_iff]
  | repeated there =>
    rw [namedIn_append_cons_iff]
    constructor
    · exact .inr
    · rintro (names | named)
      · exact ⟨_, there, names⟩
      · exact named
  | padded before after =>
    rw [namedIn_append_cons_iff, namedIn_append_cons_iff, names_padded_iff before after]
  | spaced blank =>
    rw [namedIn_append_cons_iff]
    constructor
    · exact .inr
    · rintro (names | named)
      · exact absurd blank names.1
      · exact named

/-- **Any number of changes, made or taken back, leaves which ids are named.** -/
theorem namedIn_iff_of_reworded {pieces pieces' : List (List Char)}
    (h : Relation.EqvGen Reworded pieces pieces') (id : String) :
    NamedIn pieces id ↔ NamedIn pieces' id := by
  induction h with
  | rel _ _ change => exact change.namedIn_iff id
  | refl _ => exact Iff.rfl
  | symm _ _ _ ih => exact ih.symm
  | trans _ _ _ _ _ first second => exact first.trans second

/-! ## There and back -/

/-- **Normal ids joined by commas are read as they are.** -/
theorem idsOf_intercalate {ids : List String} (nonempty : ids ≠ []) (normal : ∀ id ∈ ids, Normal id) :
    idsOf (",".intercalate ids).toList = ids := by
  have pieces : Text.split ',' (",".intercalate ids).toList = ids.map String.toList := by
    rw [String.toList_intercalate]
    refine Text.split_intercalate (by simpa using nonempty) fun piece hp => ?_
    obtain ⟨id, hid, rfl⟩ := List.mem_map.mp hp
    exact (normal id hid).no_comma
  have trimmed : (ids.map String.toList).map Text.trim = ids.map String.toList := by
    rw [List.map_map]
    refine List.map_congr_left fun id hid => ?_
    exact Text.trim_of_trimmed (normal id hid).trimmed
  have solid : (ids.map String.toList).filter (!·.isEmpty) = ids.map String.toList := by
    refine List.filter_eq_self.mpr fun piece hp => ?_
    obtain ⟨id, hid, rfl⟩ := List.mem_map.mp hp
    simpa using (normal id hid).ne_empty
  rw [idsOf, pieces, trimmed, solid, List.map_map]
  exact (List.map_congr_left fun id hid => (normal id hid).small).trans (List.map_id ids)

/-- Normal ids joined by commas, in any order and number, name themselves. -/
theorem named_intercalate {order : List String} (nonempty : order ≠ [])
    (normal : ∀ id ∈ order, Normal id) :
    (ofList (some (",".intercalate order).toList)).named = some order.toFinset := by
  rw [named_ofList, idsOf_intercalate nonempty normal, if_neg]
  rwa [List.toFinset_eq_empty_iff]

/-! ## What a list amounts to -/

/-- **What the ids in a list amount to.** All rules are meant exactly if there is no list or each of its
pieces is blank. Otherwise a set of ids is named that is not empty, and the ids are normal. The set stays
when pieces change places or are repeated and when blanks or blank pieces are put in, however often. And
every set of normal ids, those of small letters, digits and underscores among them, is named by its ids
joined with commas, in whatever order. -/
theorem named_ofList_normal :
    (∀ raw, (ofList raw).named = none ↔
      raw = none ∨ ∃ list, raw = some list ∧ ∀ piece ∈ Text.split ',' list, Blank piece) ∧
    (∀ raw ids, (ofList raw).named = some ids → ids.Nonempty ∧ ∀ id ∈ ids, Normal id) ∧
    (∀ list other, Relation.EqvGen Reworded (Text.split ',' list) (Text.split ',' other) →
      (ofList (some list)).named = (ofList (some other)).named) ∧
    (∀ id, IsId id → Normal id) ∧
    ∀ (ids : Finset String) (order : List String), ids.Nonempty → (∀ id ∈ ids, Normal id) →
      order.toFinset = ids → (ofList (some (",".intercalate order).toList)).named = some ids := by
  refine ⟨fun raw => ?_, fun raw ids => normal_of_named, fun list other change => ?_,
    fun id => normal_of_isId, ?_⟩
  · rw [named_eq_none_iff, ofList_eq_all_iff]
  · exact named_congr fun id => namedIn_iff_of_reworded change id
  · rintro ids order nonempty normal rfl
    apply named_intercalate
    · exact List.toFinset_nonempty_iff order |>.mp nonempty
    · intro id member
      exact normal id (List.mem_toFinset.mpr member)

/-- Two Greek capitals, of which the second ends a word, and the capital that becomes two characters: named
in other words, and after that two ids joined in another order, one of them twice. -/
theorem named_ofList_normal_twoWords :
    let list := "ΑΣ,İ".toList
    let other := "İ,\u3000ΑΣ ,\t,ΑΣ".toList
    (ofList (some list)).named = some {"ας", "i\u0307"} ∧
      (ofList (some other)).named = some {"ας", "i\u0307"} ∧ Normal "ας" ∧
      (ofList (some (",".intercalate ["b_2", "a", "b_2"]).toList)).named = some {"a", "b_2"} := by
  intro list other
  obtain ⟨-, normal, same, isId, back⟩ := named_ofList_normal
  have first : (ofList (some list)).named = some {"ας", "i\u0307"} := by decide +kernel
  have change : Relation.EqvGen Reworded (Text.split ',' list) (Text.split ',' other) := by
    let word := ['Α', 'Σ']
    have swapped : Reworded [word, ['İ']] [['İ'], word] := .permuted (.swap _ _ _)
    have twice : Reworded [['İ'], word] [['İ'], word, word] :=
      @Reworded.repeated [['İ'], word] [] word (by simp)
    have padded : Reworded [['İ'], word, word] [['İ'], ['\u3000'] ++ word ++ [' '], word] :=
      @Reworded.padded [['İ']] [word] ['\u3000'] word [' '] (by decide) (by decide)
    have spaced : Reworded [['İ'], ['\u3000'] ++ word ++ [' '], word]
        [['İ'], ['\u3000'] ++ word ++ [' '], ['\t'], word] :=
      @Reworded.spaced [['İ'], ['\u3000'] ++ word ++ [' ']] [word] ['\t'] (by decide)
    exact .trans _ _ _ (.rel _ _ swapped) (.trans _ _ _ (.rel _ _ twice)
      (.trans _ _ _ (.rel _ _ padded) (.rel _ _ spaced)))
  refine ⟨first, (same list other change).symm.trans first, ?_, ?_⟩
  · exact (normal (some list) _ first).2 "ας" (by simp)
  · refine back {"a", "b_2"} ["b_2", "a", "b_2"] (by simp) (fun id member => ?_) (by decide)
    have letters : ∀ id ∈ ["a", "b_2"], IsId id := by decide
    exact isId id (letters id (by simpa using member))

end LuaLint.RuleSet
