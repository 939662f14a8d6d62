import LuaLint.Text.Utf8

/-!
# Decoding around a cut

Lenient decoding reads bytes piece by piece, and a piece may take bytes that belong to what follows.
There are two places where it never does.

* **Before an ASCII byte** (`decodeLenient_append`): whatever bytes stand in front, an encoding that
  they leave unfinished is not continued by an ASCII byte.
* **After a text** (`decodeLenient_encode`): the encoding of a text is read back as that text,
  whatever bytes follow.

The other way round, each part of a decoded text was read from bytes of its own, and so the bytes can be
cut wherever the text can (`decodeLenient_eq_append`).
-/

namespace LuaLint.Utf8

/-! ## In front of an ASCII byte -/

/-- No range of continuation bytes reaches down to ASCII. -/
theorem continuation_low {lead : UInt8} {ranges : List (UInt8 × UInt8)}
    (h : continuation lead = some ranges) : ∀ r ∈ ranges, 0x80 ≤ r.1 := by
  unfold continuation at h
  repeat' split at h
  all_goals simp only [Option.some.injEq, reduceCtorEq] at h
  all_goals
    subst h
    simp only [List.mem_cons, List.not_mem_nil, or_false, forall_eq_or_imp, forall_eq,
      false_implies, implies_true]
  all_goals decide

/-- An ASCII byte ends a run of continuation bytes. -/
theorem matching_append {ranges : List (UInt8 × UInt8)} (low : ∀ r ∈ ranges, 0x80 ≤ r.1)
    {b : UInt8} (hb : b < 0x80) (bytes after : List UInt8) :
    matching ranges (bytes ++ b :: after) = matching ranges bytes := by
  induction ranges generalizing bytes with
  | nil => simp [matching]
  | cons r ranges ih =>
    cases bytes with
    | nil =>
      have miss : ¬ r.1 ≤ b := by
        have hr := low r (by simp)
        rw [UInt8.le_iff_toNat_le] at hr ⊢
        rw [UInt8.lt_iff_toNat_lt] at hb
        omega
      simp [matching, miss]
    | cons c bytes =>
      simp only [List.cons_append, matching, ih (fun r hr => low r (by simp [hr]))]

theorem matching_le (ranges : List (UInt8 × UInt8)) (bytes : List UInt8) :
    matching ranges bytes ≤ bytes.length := by
  fun_induction matching ranges bytes with
  | case1 lo hi ranges b bytes h ih => simpa using ih
  | case2 => simp
  | case3 => simp

/-- The bytes that meet ranges of continuation bytes are above ASCII. -/
theorem matching_high {ranges : List (UInt8 × UInt8)} (low : ∀ r ∈ ranges, 0x80 ≤ r.1)
    {bytes : List UInt8} {i : Nat} (h : i < matching ranges bytes) :
    ∃ b, bytes[i]? = some b ∧ 0x80 ≤ b := by
  fun_induction matching ranges bytes generalizing i with
  | case1 lo hi ranges b bytes meets ih =>
    cases i with
    | zero => exact ⟨b, rfl, UInt8.le_trans (low (lo, hi) (by simp)) (by simp_all)⟩
    | succ i => exact ih (fun r hr => low r (by simp [hr])) (by omega)
  | case2 => omega
  | case3 => omega

/-- What a piece takes after its lead byte is above ASCII. -/
theorem piece_high {lead : UInt8} {rest : List UInt8} {i : Nat} (h : i < (piece lead rest).2) :
    ∃ b, rest[i]? = some b ∧ 0x80 ≤ b := by
  unfold piece at h
  split at h
  · omega
  · rename_i ranges leads
    dsimp only at h
    split at h <;> exact matching_high (continuation_low leads) h

/-- A piece takes no more bytes than there are. -/
theorem piece_le (lead : UInt8) (bytes : List UInt8) : (piece lead bytes).2 ≤ bytes.length := by
  unfold piece
  split
  · simp
  · rename_i ranges _
    dsimp only
    split <;> exact matching_le ranges bytes

/-- A piece ends before an ASCII byte. -/
theorem piece_append {b : UInt8} (hb : b < 0x80) (lead : UInt8) (bytes after : List UInt8) :
    piece lead (bytes ++ b :: after) = piece lead bytes := by
  unfold piece
  cases h : continuation lead with
  | none => rfl
  | some ranges =>
    simp only [matching_append (continuation_low h) hb,
      List.take_append_of_le_length (matching_le ranges bytes)]

/-- **Cutting before an ASCII byte**: the pieces on both sides do not depend on each other. -/
theorem pieces_append {b : UInt8} (hb : b < 0x80) (bytes after : List UInt8) :
    pieces (bytes ++ b :: after) = pieces bytes ++ pieces (b :: after) := by
  induction bytes using pieces.induct with
  | case1 => simp [pieces]
  | case2 lead rest p ih =>
    rw [List.cons_append, pieces, pieces, piece_append hb,
      List.drop_append_of_le_length (piece_le lead rest), ih, List.cons_append]

/-- Lenient decoding can be cut before an ASCII byte. -/
theorem decodeLenient_append {b : UInt8} (hb : b < 0x80) (bytes after : List UInt8) :
    decodeLenient (bytes ++ b :: after) = decodeLenient bytes ++ decodeLenient (b :: after) := by
  simp only [decodeLenient, pieces_append hb, List.map_append]

/-- Where the decoded text can be cut, the bytes can. -/
theorem decodeLenient_eq_append {bytes : List UInt8} {front back : List Char}
    (h : decodeLenient bytes = front ++ back) :
    ∃ before after, bytes = before ++ after ∧ decodeLenient after = back := by
  induction front generalizing bytes with
  | nil => exact ⟨[], bytes, rfl, h⟩
  | cons c front ih =>
    cases bytes with
    | nil => simp [decodeLenient, pieces] at h
    | cons lead rest =>
      simp only [decodeLenient, pieces, List.map_cons, List.cons_append, List.cons.injEq] at h
      obtain ⟨before, after, cut, decoded⟩ := ih h.2
      refine ⟨lead :: (rest.take (piece lead rest).2 ++ before), after, ?_, decoded⟩
      rw [List.cons_append, List.append_assoc, ← cut, List.take_append_drop]

/-! ## After a text -/

/-- The bytes of an array, read one by one. -/
theorem toList_eq_data (bytes : ByteArray) : bytes.toList = bytes.data.toList := by
  have loop : ∀ i done, ByteArray.toList.loop bytes i done =
      done.reverse ++ bytes.data.toList.drop i := by
    intro i done
    fun_induction ByteArray.toList.loop bytes i done with
    | case1 i done inside ih =>
      have here : bytes.data.toList.drop i = bytes.get! i :: bytes.data.toList.drop (i + 1) := by
        rw [List.drop_eq_getElem_cons (i := i) (by simpa using inside)]
        exact congrArg (· :: _) (getElem!_pos bytes.data i inside).symm
      rw [ih, here, List.reverse_cons, List.append_assoc, List.singleton_append]
    | case2 i done outside =>
      rw [List.drop_eq_nil_of_le (by simpa using Nat.le_of_not_lt outside), List.append_nil]
  rw [ByteArray.toList, loop]
  rfl

/-- The encoding of a text is the encodings of its characters. -/
theorem encode_ofList (text : List Char) :
    encode (String.ofList text) = text.flatMap String.utf8EncodeChar := by
  rw [encode, String.toUTF8_eq_toByteArray, String.toByteArray_ofList, toList_eq_data]
  exact List.toList_data_toByteArray

/-- Continuation bytes that meet all ranges of their lead make a character. -/
theorem piece_of_matching {lead : UInt8} {ranges : List (UInt8 × UInt8)} {tail after : List UInt8}
    (leads : continuation lead = some ranges) (length : tail.length = ranges.length)
    (meets : matching ranges (tail ++ after) = ranges.length) :
    piece lead (tail ++ after) = (some (Char.ofNat (scalar lead tail)), tail.length) := by
  simp only [piece, leads, meets, if_true, ← length, List.take_left]

/-- What follows a lead byte, by the number of the byte. -/
theorem continuation_eq (lead : UInt8) : continuation lead =
    if lead.toNat < 0x80 then some []
    else if lead.toNat < 0xC2 then none
    else if lead.toNat < 0xE0 then some [(0x80, 0xBF)]
    else if lead.toNat = 0xE0 then some [(0xA0, 0xBF), (0x80, 0xBF)]
    else if lead.toNat = 0xED then some [(0x80, 0x9F), (0x80, 0xBF)]
    else if lead.toNat < 0xF0 then some [(0x80, 0xBF), (0x80, 0xBF)]
    else if lead.toNat = 0xF0 then some [(0x90, 0xBF), (0x80, 0xBF), (0x80, 0xBF)]
    else if lead.toNat < 0xF4 then some [(0x80, 0xBF), (0x80, 0xBF), (0x80, 0xBF)]
    else if lead.toNat = 0xF4 then some [(0x80, 0x8F), (0x80, 0xBF), (0x80, 0xBF)]
    else none := by
  simp only [continuation, UInt8.lt_iff_toNat_lt, ← UInt8.toNat_inj]
  rfl

/-- A byte that meets its range is counted. -/
theorem matching_cons {lo hi b : UInt8} (h : lo.toNat ≤ b.toNat ∧ b.toNat ≤ hi.toNat)
    (ranges : List (UInt8 × UInt8)) (bytes : List UInt8) :
    matching ((lo, hi) :: ranges) (b :: bytes) = matching ranges bytes + 1 := by
  simp [matching, UInt8.le_iff_toNat_le, h]

section sizes

variable {n : Nat} (after : List UInt8)

/-- A number below 256 is the number of its byte. -/
theorem toNat_ofNat {m : Nat} (h : m < 256) : (UInt8.ofNat m).toNat = m := by
  rw [UInt8.toNat_ofNat', Nat.mod_eq_of_lt h]

theorem piece_one (h : n < 0x80) :
    piece (UInt8.ofNat n) ([] ++ after) = (some (Char.ofNat n), 0) := by
  have lead := toNat_ofNat (show n < 256 by omega)
  have leads : continuation (UInt8.ofNat n) = some [] := by
    rw [continuation_eq, lead, if_pos h]
  rw [piece_of_matching leads rfl (by simp [matching])]
  simp only [scalar, leadBits, List.foldl_nil, List.length_nil, lead]

theorem piece_two (low : 0x80 ≤ n) (high : n < 0x800) :
    piece (UInt8.ofNat (n / 64 % 0x20 + 0xC0)) ([UInt8.ofNat (n % 0x40 + 0x80)] ++ after) =
      (some (Char.ofNat n), 1) := by
  have lead := toNat_ofNat (show n / 64 % 0x20 + 0xC0 < 256 by omega)
  have last := toNat_ofNat (show n % 0x40 + 0x80 < 256 by omega)
  have leads : continuation (UInt8.ofNat (n / 64 % 0x20 + 0xC0)) = some [(0x80, 0xBF)] := by
    rw [continuation_eq, lead, if_neg (by omega), if_neg (by omega), if_pos (by omega)]
  have meets : matching [(0x80, 0xBF)] ([UInt8.ofNat (n % 0x40 + 0x80)] ++ after) = 1 := by
    rw [List.singleton_append, matching_cons ⟨by rw [last]; simp, by rw [last]; simp; omega⟩]
    rfl
  rw [piece_of_matching leads rfl meets]
  simp only [scalar, leadBits, List.foldl_cons, List.foldl_nil, List.length_cons, List.length_nil,
    lead, last]
  congr 3
  omega

theorem piece_three (low : 0x800 ≤ n) (high : n < 0x10000) (valid : n < 0xD800 ∨ 0xDFFF < n) :
    piece (UInt8.ofNat (n / 4096 % 0x10 + 0xE0))
        ([UInt8.ofNat (n / 64 % 0x40 + 0x80), UInt8.ofNat (n % 0x40 + 0x80)] ++ after) =
      (some (Char.ofNat n), 2) := by
  have lead := toNat_ofNat (show n / 4096 % 0x10 + 0xE0 < 256 by omega)
  have mid := toNat_ofNat (show n / 64 % 0x40 + 0x80 < 256 by omega)
  have last := toNat_ofNat (show n % 0x40 + 0x80 < 256 by omega)
  -- the lead byte decides how far the byte after it may reach
  have leads : ∃ lo hi : UInt8, continuation (UInt8.ofNat (n / 4096 % 0x10 + 0xE0)) =
      some [(lo, hi), (0x80, 0xBF)] ∧
      lo.toNat ≤ n / 64 % 0x40 + 0x80 ∧ n / 64 % 0x40 + 0x80 ≤ hi.toNat := by
    rw [continuation_eq, lead, if_neg (by omega), if_neg (by omega), if_neg (by omega)]
    by_cases first : n / 4096 % 0x10 + 0xE0 = 0xE0
    · exact ⟨0xA0, 0xBF, by rw [if_pos first], by simp; omega, by simp; omega⟩
    · rw [if_neg first]
      by_cases surrogates : n / 4096 % 0x10 + 0xE0 = 0xED
      · exact ⟨0x80, 0x9F, by rw [if_pos surrogates], by simp, by simp; omega⟩
      · rw [if_neg surrogates, if_pos (by omega)]
        exact ⟨0x80, 0xBF, rfl, by simp, by simp; omega⟩
  obtain ⟨lo, hi, leads, reach⟩ := leads
  have meets : matching [(lo, hi), (0x80, 0xBF)] ([UInt8.ofNat (n / 64 % 0x40 + 0x80),
      UInt8.ofNat (n % 0x40 + 0x80)] ++ after) = 2 := by
    rw [List.cons_append, matching_cons (by rw [mid]; exact reach), List.singleton_append,
      matching_cons ⟨by rw [last]; simp, by rw [last]; simp; omega⟩]
    rfl
  rw [piece_of_matching leads rfl meets]
  simp only [scalar, leadBits, List.foldl_cons, List.foldl_nil, List.length_cons, List.length_nil,
    lead, mid, last]
  congr 3
  omega

theorem piece_four (low : 0x10000 ≤ n) (high : n < 0x110000) :
    piece (UInt8.ofNat (n / 262144 % 0x08 + 0xF0))
        ([UInt8.ofNat (n / 4096 % 0x40 + 0x80), UInt8.ofNat (n / 64 % 0x40 + 0x80),
          UInt8.ofNat (n % 0x40 + 0x80)] ++ after) =
      (some (Char.ofNat n), 3) := by
  have lead := toNat_ofNat (show n / 262144 % 0x08 + 0xF0 < 256 by omega)
  have second := toNat_ofNat (show n / 4096 % 0x40 + 0x80 < 256 by omega)
  have third := toNat_ofNat (show n / 64 % 0x40 + 0x80 < 256 by omega)
  have last := toNat_ofNat (show n % 0x40 + 0x80 < 256 by omega)
  have leads : ∃ lo hi : UInt8, continuation (UInt8.ofNat (n / 262144 % 0x08 + 0xF0)) =
      some [(lo, hi), (0x80, 0xBF), (0x80, 0xBF)] ∧
      lo.toNat ≤ n / 4096 % 0x40 + 0x80 ∧ n / 4096 % 0x40 + 0x80 ≤ hi.toNat := by
    rw [continuation_eq, lead, if_neg (by omega), if_neg (by omega), if_neg (by omega),
      if_neg (by omega), if_neg (by omega), if_neg (by omega)]
    by_cases first : n / 262144 % 0x08 + 0xF0 = 0xF0
    · exact ⟨0x90, 0xBF, by rw [if_pos first], by simp; omega, by simp; omega⟩
    · rw [if_neg first]
      by_cases inner : n / 262144 % 0x08 + 0xF0 < 0xF4
      · exact ⟨0x80, 0xBF, by rw [if_pos inner], by simp, by simp; omega⟩
      · rw [if_neg inner, if_pos (by omega)]
        exact ⟨0x80, 0x8F, rfl, by simp, by simp; omega⟩
  obtain ⟨lo, hi, leads, reach⟩ := leads
  have meets : matching [(lo, hi), (0x80, 0xBF), (0x80, 0xBF)]
      ([UInt8.ofNat (n / 4096 % 0x40 + 0x80), UInt8.ofNat (n / 64 % 0x40 + 0x80),
        UInt8.ofNat (n % 0x40 + 0x80)] ++ after) = 3 := by
    rw [List.cons_append, matching_cons (by rw [second]; exact reach), List.cons_append,
      matching_cons ⟨by rw [third]; simp, by rw [third]; simp; omega⟩, List.singleton_append,
      matching_cons ⟨by rw [last]; simp, by rw [last]; simp; omega⟩]
    rfl
  rw [piece_of_matching leads rfl meets]
  simp only [scalar, leadBits, List.foldl_cons, List.foldl_nil, List.length_cons, List.length_nil,
    lead, second, third, last]
  congr 3
  omega

end sizes

/-- **The encoding of a character is one piece**, whatever follows. -/
theorem piece_utf8EncodeChar (c : Char) (after : List UInt8) :
    ∃ lead tail, String.utf8EncodeChar c = lead :: tail ∧
      piece lead (tail ++ after) = (some c, tail.length) := by
  have back : Char.ofNat c.val.toNat = c := Char.ofNat_toNat c
  have valid : c.val.toNat < 0xD800 ∨ 0xDFFF < c.val.toNat ∧ c.val.toNat < 0x110000 := c.valid
  unfold String.utf8EncodeChar
  by_cases h1 : c.val.toNat ≤ 0x7F
  · exact ⟨_, [], if_pos h1, by rw [piece_one after (by omega), back]; rfl⟩
  by_cases h2 : c.val.toNat ≤ 0x7FF
  · refine ⟨_, _, by rw [if_neg h1, if_pos h2], ?_⟩
    rw [piece_two after (by omega) (by omega), back]
    rfl
  by_cases h3 : c.val.toNat ≤ 0xFFFF
  · refine ⟨_, _, by rw [if_neg h1, if_neg h2, if_pos h3], ?_⟩
    rw [piece_three after (by omega) (by omega) (by omega), back]
    rfl
  · refine ⟨_, _, by rw [if_neg h1, if_neg h2, if_neg h3], ?_⟩
    rw [piece_four after (by omega) (by omega), back]
    rfl

/-- The encoding of a text is cut into its characters. -/
theorem pieces_encode (text : List Char) (after : List UInt8) :
    pieces (encode (String.ofList text) ++ after) = text.map some ++ pieces after := by
  rw [encode_ofList]
  induction text with
  | nil => rfl
  | cons c text ih =>
    obtain ⟨lead, tail, encoded, one⟩ :=
      piece_utf8EncodeChar c (text.flatMap String.utf8EncodeChar ++ after)
    rw [List.flatMap_cons, encoded, List.cons_append, List.cons_append, List.append_assoc, pieces,
      one, List.drop_left, ih, List.map_cons, List.cons_append]

/-- **The encoding of a text is read back as that text**, whatever bytes follow. -/
theorem decodeLenient_encode (text : List Char) (after : List UInt8) :
    decodeLenient (encode (String.ofList text) ++ after) = text ++ decodeLenient after := by
  simp [decodeLenient, pieces_encode, Function.comp_def]

end LuaLint.Utf8
