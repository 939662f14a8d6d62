import LuaLint.Proofs.Text.Utf8
import Mathlib.Tactic.SplitIfs

/-!
# Strict decoding

Strict decoding reads exactly the encodings of texts (`decode?_eq_some_iff`), so what it refuses is the
encoding of no text at all.

Reading back what was encoded is the easy half. The other half says that nothing else is read: a lead
byte and continuation bytes that meet its ranges are the encoding of the character that they make
(`utf8EncodeChar_of_piece`). This is where the ranges after `E0`, `ED`, `F0` and `F4` are needed: they
leave out the forms that are too long, the surrogates, and the numbers that are too great. An ASCII
character therefore has one form only, in lenient decoding as well (`decodeLenient_eq_cons`).
-/

namespace LuaLint.Utf8

/-! ## What leads what -/

/-- The ranges after a lead byte, by how many there are. -/
theorem continuation_cases {lead : UInt8} {ranges : List (UInt8 × UInt8)}
    (leads : continuation lead = some ranges) :
    (ranges = [] ∧ lead.toNat < 0x80) ∨
    (ranges = [(0x80, 0xBF)] ∧ 0xC2 ≤ lead.toNat ∧ lead.toNat < 0xE0) ∨
    (∃ lo hi : UInt8, ranges = [(lo, hi), (0x80, 0xBF)] ∧ 0xE0 ≤ lead.toNat ∧ lead.toNat < 0xF0 ∧
      0x80 ≤ lo.toNat ∧ hi.toNat ≤ 0xBF ∧ (lead.toNat = 0xE0 → 0xA0 ≤ lo.toNat) ∧
      (lead.toNat = 0xED → hi.toNat ≤ 0x9F)) ∨
    (∃ lo hi : UInt8, ranges = [(lo, hi), (0x80, 0xBF), (0x80, 0xBF)] ∧ 0xF0 ≤ lead.toNat ∧
      lead.toNat ≤ 0xF4 ∧ 0x80 ≤ lo.toNat ∧ hi.toNat ≤ 0xBF ∧ (lead.toNat = 0xF0 → 0x90 ≤ lo.toNat) ∧
      (lead.toNat = 0xF4 → hi.toNat ≤ 0x8F)) := by
  rw [continuation_eq] at leads
  split_ifs at leads with h80 hC2 hE0 isE0 isED hF0 isF0 hF4 isF4
  all_goals obtain rfl := Option.some.inj leads
  · exact Or.inl ⟨rfl, h80⟩
  · exact Or.inr (Or.inl ⟨rfl, by omega, hE0⟩)
  · exact Or.inr (Or.inr (Or.inl ⟨0xA0, 0xBF, rfl, by omega, by omega, by decide, by decide,
      fun _ => by decide, fun h => by omega⟩))
  · exact Or.inr (Or.inr (Or.inl ⟨0x80, 0x9F, rfl, by omega, by omega, by decide, by decide,
      fun h => by omega, fun _ => by decide⟩))
  · exact Or.inr (Or.inr (Or.inl ⟨0x80, 0xBF, rfl, by omega, by omega, by decide, by decide,
      fun h => by omega, fun h => by omega⟩))
  · exact Or.inr (Or.inr (Or.inr ⟨0x90, 0xBF, rfl, by omega, by omega, by decide, by decide,
      fun _ => by decide, fun h => by omega⟩))
  · exact Or.inr (Or.inr (Or.inr ⟨0x80, 0xBF, rfl, by omega, by omega, by decide, by decide,
      fun h => by omega, fun h => by omega⟩))
  · exact Or.inr (Or.inr (Or.inr ⟨0x80, 0x8F, rfl, by omega, by omega, by decide, by decide,
      fun h => by omega, fun _ => by decide⟩))

/-- Bytes that meet all ranges begin with one that meets the first. -/
theorem of_matching_cons {lo hi : UInt8} {ranges : List (UInt8 × UInt8)} {bytes : List UInt8}
    (meets : matching ((lo, hi) :: ranges) bytes = ranges.length + 1) :
    ∃ b rest, bytes = b :: rest ∧ (lo.toNat ≤ b.toNat ∧ b.toNat ≤ hi.toNat) ∧
      matching ranges rest = ranges.length := by
  cases bytes with
  | nil => simp [matching] at meets
  | cons b rest =>
    simp only [matching, UInt8.le_iff_toNat_le, Bool.and_eq_true, decide_eq_true_eq] at meets
    split at meets
    · rename_i inside
      exact ⟨b, rest, rfl, inside, by omega⟩
    · simp at meets

/-! ## What a piece encodes -/

/-- The number of a character that is given by its number. -/
theorem toNat_val_ofNat {n : Nat} (h : n < 0xD800 ∨ 0xDFFF < n ∧ n < 0x110000) :
    (Char.ofNat n).val.toNat = n := by
  rw [Char.ofNat, dif_pos h]
  rfl

/-- The byte of a number is the byte that has the number. -/
theorem ofNat_eq {b : UInt8} {n : Nat} (h : n = b.toNat) : UInt8.ofNat n = b := by
  rw [h, UInt8.ofNat_toNat]

section sizes

variable {lead a b d : UInt8}

theorem utf8EncodeChar_one (small : lead.toNat < 0x80) :
    String.utf8EncodeChar (Char.ofNat (scalar lead [])) = [lead] := by
  have number : scalar lead [] = lead.toNat := rfl
  rw [String.utf8EncodeChar, number, toNat_val_ofNat (by omega), if_pos (by omega), UInt8.ofNat_toNat]

theorem utf8EncodeChar_two (low : 0xC2 ≤ lead.toNat) (high : lead.toNat < 0xE0)
    (ha : 0x80 ≤ a.toNat ∧ a.toNat ≤ 0xBF) :
    String.utf8EncodeChar (Char.ofNat (scalar lead [a])) = [lead, a] := by
  have number : scalar lead [a] = lead.toNat % 0x20 * 0x40 + a.toNat % 0x40 := rfl
  rw [String.utf8EncodeChar, number, toNat_val_ofNat (by omega), if_neg (by omega), if_pos (by omega),
    ofNat_eq (b := lead) (by omega), ofNat_eq (b := a) (by omega)]

theorem utf8EncodeChar_three (low : 0xE0 ≤ lead.toNat) (high : lead.toNat < 0xF0)
    (ha : 0x80 ≤ a.toNat ∧ a.toNat ≤ 0xBF) (hb : 0x80 ≤ b.toNat ∧ b.toNat ≤ 0xBF)
    (long : lead.toNat = 0xE0 → 0xA0 ≤ a.toNat) (scalars : lead.toNat = 0xED → a.toNat ≤ 0x9F) :
    String.utf8EncodeChar (Char.ofNat (scalar lead [a, b])) = [lead, a, b] := by
  have number : scalar lead [a, b] =
      (lead.toNat % 0x10 * 0x40 + a.toNat % 0x40) * 0x40 + b.toNat % 0x40 := rfl
  rw [String.utf8EncodeChar, number, toNat_val_ofNat (by omega), if_neg (by omega), if_neg (by omega),
    if_pos (by omega), ofNat_eq (b := lead) (by omega), ofNat_eq (b := a) (by omega),
    ofNat_eq (b := b) (by omega)]

theorem utf8EncodeChar_four (low : 0xF0 ≤ lead.toNat) (high : lead.toNat ≤ 0xF4)
    (ha : 0x80 ≤ a.toNat ∧ a.toNat ≤ 0xBF) (hb : 0x80 ≤ b.toNat ∧ b.toNat ≤ 0xBF)
    (hd : 0x80 ≤ d.toNat ∧ d.toNat ≤ 0xBF) (long : lead.toNat = 0xF0 → 0x90 ≤ a.toNat)
    (last : lead.toNat = 0xF4 → a.toNat ≤ 0x8F) :
    String.utf8EncodeChar (Char.ofNat (scalar lead [a, b, d])) = [lead, a, b, d] := by
  have number : scalar lead [a, b, d] = ((lead.toNat % 0x08 * 0x40 + a.toNat % 0x40) * 0x40
      + b.toNat % 0x40) * 0x40 + d.toNat % 0x40 := rfl
  rw [String.utf8EncodeChar, number, toNat_val_ofNat (by omega), if_neg (by omega), if_neg (by omega),
    if_neg (by omega), ofNat_eq (b := lead) (by omega), ofNat_eq (b := a) (by omega),
    ofNat_eq (b := b) (by omega), ofNat_eq (b := d) (by omega)]

end sizes

/-- **A piece that is a character is the encoding of that character.** -/
theorem utf8EncodeChar_of_piece {lead : UInt8} {rest : List UInt8} {c : Char} {n : Nat}
    (h : piece lead rest = (some c, n)) : String.utf8EncodeChar c = lead :: rest.take n := by
  unfold piece at h
  split at h
  · simp at h
  rename_i ranges leads
  dsimp only at h
  split at h
  · rename_i meets
    obtain ⟨rfl, rfl⟩ : Char.ofNat (scalar lead (rest.take (matching ranges rest))) = c ∧
        matching ranges rest = n := by simpa using h
    rw [meets]
    obtain ⟨rfl, small⟩ | ⟨rfl, low, high⟩ | ⟨lo, hi, rfl, low, high, above, below, long, scalars⟩ |
      ⟨lo, hi, rfl, low, high, above, below, long, last⟩ := continuation_cases leads
    · exact utf8EncodeChar_one small
    · obtain ⟨a, rest, rfl, ha, -⟩ := of_matching_cons meets
      exact utf8EncodeChar_two low high ha
    · obtain ⟨a, rest, rfl, ha, meets⟩ := of_matching_cons meets
      obtain ⟨b, rest, rfl, hb, -⟩ := of_matching_cons meets
      exact utf8EncodeChar_three low high (by omega) hb (fun h => by have := long h; omega)
        (fun h => by have := scalars h; omega)
    · obtain ⟨a, rest, rfl, ha, meets⟩ := of_matching_cons meets
      obtain ⟨b, rest, rfl, hb, meets⟩ := of_matching_cons meets
      obtain ⟨d, rest, rfl, hd, -⟩ := of_matching_cons meets
      exact utf8EncodeChar_four low high (by omega) hb hd (fun h => by have := long h; omega)
        (fun h => by have := last h; omega)
  · simp at h

/-- A character of one byte that is read first, also leniently, is that byte. -/
theorem decodeLenient_eq_cons {bytes : List UInt8} {c : Char} {b : UInt8} {text : List Char}
    (h : decodeLenient bytes = c :: text) (single : String.utf8EncodeChar c = [b]) :
    ∃ rest, bytes = b :: rest ∧ decodeLenient rest = text := by
  cases bytes with
  | nil => simp [decodeLenient, pieces] at h
  | cons lead rest =>
    simp only [decodeLenient, pieces, List.map_cons, List.cons.injEq] at h
    obtain ⟨first, later⟩ := h
    rcases read : piece lead rest with ⟨_ | d, n⟩
    · -- the sign for a piece that is no character takes three bytes itself
      rw [read] at first
      obtain rfl : '\uFFFD' = c := first
      exact absurd (congrArg List.length single) (by rw [List.length_singleton]; decide)
    · rw [read] at first later
      obtain rfl : d = c := first
      obtain ⟨rfl, none⟩ := List.cons.inj ((utf8EncodeChar_of_piece read).symm.trans single)
      have whole := List.take_append_drop n rest
      rw [none, List.nil_append] at whole
      rw [whole] at later
      exact ⟨rest, rfl, later⟩

/-! ## Texts -/

/-- What is read strictly is the encoding of what is read. -/
theorem encode_of_decode (bytes : List UInt8) :
    ∀ text, decode? bytes = some text → encode (String.ofList text) = bytes := by
  simp only [encode_ofList, decode?]
  fun_induction pieces bytes with
  | case1 =>
    intro text h
    obtain rfl : text = [] := by simpa using h
    rfl
  | case2 lead rest p ih =>
    intro text h
    rw [List.mapM_cons] at h
    obtain ⟨c, first, h⟩ := Option.bind_eq_some_iff.mp h
    obtain ⟨others, later, h⟩ := Option.bind_eq_some_iff.mp h
    obtain rfl : c :: others = text := Option.some.inj h
    have one : String.utf8EncodeChar c = lead :: rest.take (piece lead rest).2 :=
      utf8EncodeChar_of_piece (Prod.ext first rfl)
    rw [List.flatMap_cons, one, ih others later, List.cons_append, List.take_append_drop]

/-- **Strict decoding reads the encodings of texts and nothing else.** -/
theorem decode?_eq_some_iff {bytes : List UInt8} {text : List Char} :
    decode? bytes = some text ↔ encode (String.ofList text) = bytes := by
  refine ⟨encode_of_decode bytes text, fun h => ?_⟩
  have all := pieces_encode text []
  rw [List.append_nil, h, pieces, List.append_nil] at all
  rw [decode?, all, List.mapM_map]
  exact (List.mapM_pure (m := Option) (f := id)).trans (congrArg some (List.map_id text))

end LuaLint.Utf8
