import LuaLint.Lua.Tree
import LuaLint.Proofs.Lua.Grouping
import LuaLint.Proofs.Lua.Token
import LuaLint.Proofs.Source.Lines
import LuaLint.Proofs.Text.StrictUtf8

/-!
# Two dashes in a Lua text

Two dashes next to each other begin a comment, unless they stand where any text may stand: inside a
comment, inside a string, or in the line with a hash sign at the start of a text.

* **Lexemes** (`Undashed`): no pair of dashes begins in a name, in a numeral, in a mark, or in the brackets
  of a long string. A numeral may hold a dash, as the sign of its exponent, but never two in a row.
* **What is cut off** (`cut_dashes`): so a pair that begins in a token lies in one of those three places.
* **The text** (`tokens_dashes`): and so does every pair of the whole text, since blanks are no dashes.

The last section says how the cuts of a text may follow each other (`tokens_orderly`).
-/

namespace LuaLint.Lua

open Node Outcome
open Source (DashesAt)

/-- No pair of dashes begins in the first `n` bytes. -/
def Undashed (bytes : List UInt8) (n : Nat) : Prop := ∀ i < n, ¬ DashesAt bytes i

variable {bytes rest : List UInt8} {b : UInt8} {n m : Nat}

namespace Undashed

theorem zero (bytes : List UInt8) : Undashed bytes 0 := fun _ lt => absurd lt (Nat.not_lt_zero _)

theorem cons (ne : b ≠ byte '-') (h : Undashed bytes n) : Undashed (b :: bytes) (n + 1) := by
  intro i lt pair
  cases i with
  | zero => exact ne (Option.some.inj pair.1)
  | succ i => exact h i (by omega) pair

/-- **A lexeme in two parts** has no dashes if its parts have none. -/
theorem add (front : Undashed bytes n) (back : Undashed (bytes.drop n) m) :
    Undashed bytes (n + m) := by
  intro i lt pair
  by_cases first : i < n
  · exact front i first pair
  · exact back (i - n) (by omega) (pair.drop (by omega))

theorem of_head? (first : bytes.head? = some b) (ne : b ≠ byte '-') : Undashed bytes 1 := by
  obtain ⟨rest, rfl⟩ := List.head?_eq_some_iff.mp first
  exact (zero rest).cons ne

theorem of_begins (word : List UInt8) (none : byte '-' ∉ word) (h : word <+: bytes) :
    Undashed bytes word.length := by
  obtain ⟨rest, rfl⟩ := h
  intro i lt pair
  have here := pair.1
  rw [List.getElem?_append_left lt] at here
  exact none (List.mem_of_getElem? here)

end Undashed

/-- Each byte of a run satisfies what the run asks for. -/
theorem getElem?_of_lt_run {p : UInt8 → Bool} {i : Nat} (lt : i < run p bytes) :
    ∃ b, bytes[i]? = some b ∧ p b = true := by
  obtain ⟨after, whole⟩ := List.takeWhile_prefix (l := bytes) p
  refine ⟨(bytes.takeWhile p)[i], ?_, ?_⟩
  · conv => lhs; rw [← whole]
    rw [List.getElem?_append_left lt, List.getElem?_eq_getElem lt]
  · exact List.all_eq_true.mp List.all_takeWhile _ (List.getElem_mem lt)

theorem undashed_run {p : UInt8 → Bool} (none : p (byte '-') = false) (bytes : List UInt8) :
    Undashed bytes (run p bytes) := by
  intro i lt pair
  obtain ⟨b, here, satisfies⟩ := getElem?_of_lt_run lt
  obtain rfl := Option.some.inj (here.symm.trans pair.1)
  rw [show Source.dash = byte '-' from rfl, none] at satisfies
  cases satisfies

theorem ne_dash {chars : String} (none : isOneOf chars (byte '-') = false)
    (h : isOneOf chars b = true) : b ≠ byte '-' := by
  rintro rfl
  rw [none] at h
  cases h

/-! ## Names -/

/-- The first byte of a name is no dash. -/
theorem ne_dash_of_isNameChar {c : Char} (h : Utf8.piece b rest = (some c, n))
    (isName : isNameChar c = true) : b ≠ byte '-' := by
  rintro rfl
  have dash : Utf8.piece (byte '-') rest = (some '-', 0) := rfl
  obtain rfl : '-' = c := by
    rw [dash] at h
    exact Option.some.inj (Prod.mk.inj h).1
  exact absurd isName (by decide)

theorem undashed_nameLength (bytes : List UInt8) : Undashed bytes (nameLength bytes) := by
  fun_induction nameLength bytes with
  | case1 => exact .zero _
  | case2 lead rest c n first isName ih =>
    have tail : Undashed rest n := by
      intro i lt pair
      have inside : i < (Utf8.piece lead rest).2 := by rwa [first]
      obtain ⟨b, here, high⟩ := Utf8.piece_high inside
      obtain rfl := Option.some.inj (here.symm.trans pair.1)
      exact absurd high (by decide)
    have after := tail.add ih
    rw [Nat.add_comm] at after
    exact after.cons (ne_dash_of_isNameChar first isName)
  | case3 => exact .zero _
  | case4 => exact .zero _

/-! ## Numerals -/

/-- The sign of an exponent is followed by a digit. -/
theorem undashed_exponentLength {mark : String} (none : isOneOf mark (byte '-') = false)
    (bytes : List UInt8) : Undashed bytes (exponentLength mark bytes) := by
  cases bytes with
  | nil => exact .zero _
  | cons m rest =>
    unfold exponentLength
    dsimp only
    generalize width : (if rest.head?.any (isOneOf "+-") then 1 else 0) = sign
    split
    · rename_i used
      obtain ⟨marked, some⟩ := Bool.and_eq_true_iff.mp used
      have some : 0 < run isDigit (rest.drop sign) := of_decide_eq_true some
      have signed : Undashed rest sign := by
        intro i lt pair
        obtain ⟨rfl, rfl⟩ : i = 0 ∧ sign = 1 := by
          split at width <;> omega
        obtain ⟨b, here, digit⟩ := getElem?_of_lt_run some
        rw [List.getElem?_drop] at here
        exact ne_dash (by decide) digit (Option.some.inj (here.symm.trans pair.2))
      have digits := undashed_run (p := isDigit) (by decide) (rest.drop sign)
      have whole := (signed.add digits).cons (ne_dash none marked)
      rwa [show 1 + sign + run isDigit (rest.drop sign) =
        sign + run isDigit (rest.drop sign) + 1 by omega]
    · exact .zero _

theorem undashed_imaginaryLength (bytes : List UInt8) :
    Undashed bytes (imaginaryLength bytes) := by
  unfold imaginaryLength
  split
  · rename_i marked
    obtain ⟨b, first, imaginary⟩ := (Option.any_eq_true _ _).mp marked
    exact .of_head? first (ne_dash (by decide) imaginary)
  · exact .zero _

theorem undashed_scaleLength {mark : String} (none : isOneOf mark (byte '-') = false)
    (bytes : List UInt8) : Undashed bytes (scaleLength mark bytes) :=
  (undashed_exponentLength none bytes).add (undashed_imaginaryLength _)

theorem undashed_widthLength (bytes : List UInt8) : Undashed bytes (widthLength bytes) := by
  unfold widthLength
  split
  · rename_i a b c rest
    split
    · rename_i wide
      simp only [Bool.and_eq_true] at wide
      obtain ⟨⟨ha, hb⟩, hc⟩ := wide
      exact (((Undashed.zero rest).cons (ne_dash (by decide) hc)).cons
        (ne_dash (by decide) hb)).cons (ne_dash (by decide) ha)
    · split
      · rename_i wide
        obtain ⟨ha, hb⟩ := Bool.and_eq_true_iff.mp wide
        exact ((Undashed.zero _).cons (ne_dash (by decide) hb)).cons (ne_dash (by decide) ha)
      · exact undashed_imaginaryLength _
  · rename_i a b
    split
    · rename_i wide
      obtain ⟨ha, hb⟩ := Bool.and_eq_true_iff.mp wide
      exact ((Undashed.zero _).cons (ne_dash (by decide) hb)).cons (ne_dash (by decide) ha)
    · exact undashed_imaginaryLength [a, b]
  · exact undashed_imaginaryLength _

theorem undashed_positionalLength (digit : UInt8 → Bool) (mark : String)
    (noDigit : digit (byte '-') = false) (noMark : isOneOf mark (byte '-') = false)
    (bytes : List UInt8) : Undashed bytes (positionalLength digit mark bytes) := by
  have whole := undashed_run noDigit bytes
  unfold positionalLength
  dsimp only
  split
  · rename_i pointed
    have point : (bytes.drop (run digit bytes)).head? = some (byte '.') :=
      of_decide_eq_true (Bool.and_eq_true_iff.mp pointed).1
    have fraction := undashed_run noDigit ((bytes.drop (run digit bytes)).drop 1)
    have both := whole.add ((Undashed.of_head? point (by decide)).add fraction)
    rw [← Nat.add_assoc] at both
    exact both.add (undashed_scaleLength noMark _)
  · split
    · exact .zero _
    · split
      · exact whole.add (undashed_scaleLength noMark _)
      · exact whole.add (undashed_widthLength _)

theorem undashed_binaryLength (bytes : List UInt8) : Undashed bytes (binaryLength bytes) := by
  unfold binaryLength
  dsimp only
  split
  · exact .zero _
  · exact (undashed_run (by decide) bytes).add (undashed_widthLength _)

theorem undashed_numeralLength (bytes : List UInt8) : Undashed bytes (numeralLength bytes) := by
  have decimal := undashed_positionalLength isDigit "eE" (by decide) (by decide) bytes
  unfold numeralLength
  dsimp only
  split
  · rename_i zero base rest
    have hex := undashed_positionalLength isHexDigit "pP" (by decide) (by decide) rest
    split
    · rename_i hexadecimal
      simp only [Bool.and_eq_true, decide_eq_true_eq] at hexadecimal
      obtain ⟨⟨rfl, marked⟩, -⟩ := hexadecimal
      rw [Nat.add_comm]
      exact (hex.cons (ne_dash (by decide) marked)).cons (by decide)
    · split
      · rename_i binary
        simp only [Bool.and_eq_true, decide_eq_true_eq] at binary
        obtain ⟨⟨rfl, marked⟩, -⟩ := binary
        rw [Nat.add_comm]
        exact ((undashed_binaryLength rest).cons (ne_dash (by decide) marked)).cons (by decide)
      · exact decimal
  · exact decimal

/-! ## Marks and brackets -/

theorem undashed_mark {c : UInt8} {mark : String} (h : mark? (c :: rest) = some mark)
    (undashed : ¬ (c = byte '-' ∧ rest.head? = some (byte '-'))) :
    Undashed (c :: rest) (Utf8.encode mark).length := by
  have begins : (Utf8.encode mark).isPrefixOf (c :: rest) = true :=
    List.find?_some (p := fun m => (Utf8.encode m).isPrefixOf (c :: rest)) h
  by_cases minus : mark = "-"
  · -- the mark is one dash, and the pair that it could begin is a comment
    subst minus
    intro i lt pair
    have one : (Utf8.encode "-").length = 1 := by decide +kernel
    obtain rfl : i = 0 := Nat.lt_one_iff.mp (one ▸ lt)
    exact undashed ⟨Option.some.inj pair.1, List.head?_eq_getElem?.trans pair.2⟩
  · have others : ∀ m ∈ marks, m ≠ "-" → byte '-' ∉ Utf8.encode m := by decide +kernel
    exact .of_begins (Utf8.encode mark) (others mark (List.mem_of_find?_eq_some h) minus)
      (List.isPrefixOf_iff_prefix.mp begins)

theorem undashed_longOpening {level : Nat} (h : longOpening? bytes = some level) :
    Undashed bytes (level + 2) := by
  cases bytes with
  | nil => cases h
  | cons c rest =>
    simp only [longOpening?] at h
    split at h
    · rename_i opens
      obtain rfl := Option.some.inj h
      obtain ⟨rfl, second⟩ : c = byte '[' ∧
          (rest.drop (run (· == byte '=') rest)).head? = some (byte '[') := by simpa using opens
      have signs := undashed_run (p := (· == byte '=')) (by decide) rest
      exact (signs.add (.of_head? second (by decide))).cons (by decide)
    · cases h

/-- What a long bracket encloses is followed by the closing bracket. -/
theorem longClosing_begins {level length : Nat} (h : longContent? level bytes = some length) :
    longClosing level <+: bytes.drop length := by
  induction bytes generalizing length with
  | nil => cases h
  | cons c rest ih =>
    rw [longContent?] at h
    split at h
    · rename_i closes
      obtain rfl := Option.some.inj h
      exact List.isPrefixOf_iff_prefix.mp closes
    · obtain ⟨shorter, later, rfl⟩ := Option.map_eq_some_iff.mp h
      exact ih later

theorem undashed_longClosing {level length : Nat} (h : longContent? level bytes = some length) :
    Undashed (bytes.drop length) (level + 2) := by
  have signs : byte '-' ≠ byte ']' ∧ byte '-' ≠ byte '=' := by decide
  have none : byte '-' ∉ longClosing level := by simp [longClosing, signs]
  have closing := Undashed.of_begins _ none (longClosing_begins h)
  simpa [longClosing] using closing

/-! ## Where any text may stand -/

/-- Any text may stand at the offset: the node is a comment or a line with a hash sign and covers it, or
it is a string whose content does. -/
def Holds (n : Node) (offset : Int) : Prop :=
  ((isComment n = true ∨ n.kind = "hash_bang_line") ∧ n.start ≤ offset ∧ offset < n.stop) ∨
    ∃ m ∈ n.children, m.kind = "string_content" ∧ m.start ≤ offset ∧ offset < m.stop

theorem comment_isComment {offset : Nat} {found : Cut} (h : comment offset rest = .ok found) :
    isComment found.node = true := by
  unfold comment at h
  split at h
  · obtain ⟨⟨parts, stop⟩, -, h⟩ := bind_eq_ok.mp h
    obtain rfl := Except.ok.inj h
    rfl
  · obtain rfl := Except.ok.inj h
    rfl

/-- A quoted string ends with its quote. -/
theorem quotedContent_close {quote : UInt8} {offset close : Nat} {escapes : List Node}
    (h : quotedContent quote offset bytes = .ok (escapes, close)) :
    ∃ k, close = offset + k ∧ bytes[k]? = some quote := by
  fun_induction quotedContent quote offset bytes generalizing escapes close with
  | case1 => cases h
  | case2 offset rest =>
    obtain ⟨rfl, rfl⟩ := Prod.mk.inj (Except.ok.inj h)
    exact ⟨0, rfl, rfl⟩
  | case3 => cases h
  | case4 =>
    rename_i offset rest length some stop other escape ih
    obtain ⟨⟨later, last⟩, others, h⟩ := bind_eq_ok.mp h
    obtain ⟨rfl, rfl⟩ := Prod.mk.inj (Except.ok.inj h)
    obtain ⟨k, ends, quoted⟩ := ih others
    have begins : stop = offset + 1 + length := rfl
    rw [List.getElem?_drop] at quoted
    exact ⟨length + k + 1, by omega, quoted⟩
  | case5 =>
    rename_i offset c rest other plain ih
    obtain ⟨k, ends, quoted⟩ := ih h
    exact ⟨k + 1, by omega, quoted⟩

theorem quotedString_holds {offset i : Nat} {quote : UInt8} {found : Cut}
    (h : quotedString offset quote rest = .ok found) (ne : quote ≠ byte '-') (lt : i < found.length)
    (pair : DashesAt (quote :: rest) i) : Holds found.node (offset + i : Nat) := by
  unfold quotedString at h
  obtain ⟨⟨escapes, close⟩, content, h⟩ := bind_eq_ok.mp h
  obtain rfl := Except.ok.inj h
  obtain ⟨k, rfl, quoted⟩ := quotedContent_close content
  have first : i ≠ 0 := by
    rintro rfl
    exact ne (Option.some.inj pair.1)
  have last : i ≠ k + 1 := by
    rintro rfl
    exact ne (Option.some.inj (quoted.symm.trans pair.1))
  have inside : i < k + 1 := by
    dsimp only at lt
    omega
  have some : offset + 1 + k ≠ offset + 1 := by omega
  rw [if_neg some]
  refine .inr ⟨_, List.mem_cons_of_mem _ (List.mem_cons_self ..), rfl, ?_, ?_⟩
  · simp only [Node.token]
    omega
  · simp only [Node.token]
    omega

theorem longString_holds {c : UInt8} {offset level stop i : Nat} {parts : List Node}
    (opens : longOpening? (c :: rest) = some level)
    (h : longParts "string_content" offset (offset + (level + 2)) level
      ((c :: rest).drop (level + 2)) = .ok (parts, stop))
    (lt : i < stop - offset) (pair : DashesAt (c :: rest) i) :
    Holds (Node.construct "string" parts) (offset + i : Nat) := by
  unfold longParts at h
  split at h
  · cases h
  · rename_i length content
    obtain ⟨rfl, rfl⟩ := Prod.mk.inj (Except.ok.inj h)
    have after : level + 2 ≤ i :=
      Nat.le_of_not_lt fun early => undashed_longOpening opens i early pair
    have inside := pair.drop after
    have before : i - (level + 2) < length := by
      refine Nat.lt_of_not_le fun late => ?_
      exact undashed_longClosing content _ (by omega) (inside.drop late)
    refine .inr ⟨_, List.mem_cons_of_mem _ (List.mem_cons_self ..), rfl, ?_, ?_⟩
    · simp only [Node.token]
      omega
    · simp only [Node.token]
      omega

/-! ## One token -/

theorem leaf_undashed {kind : String} {named : Bool} {offset i : Nat}
    (undashed : Undashed bytes n) (lt : i < (leaf kind named offset n bytes).length) :
    ¬ DashesAt bytes i :=
  undashed i lt

/-- **A pair of dashes that begins in a token stands where any text may stand.** -/
theorem cut_dashes {first : Bool} {offset i : Nat} {c : UInt8} {found : Cut}
    (h : cut first offset c rest = .ok found) (lt : i < found.length)
    (pair : DashesAt (c :: rest) i) : Holds found.node (offset + i : Nat) := by
  have fits := cut_fits h
  have covers : found.node.start ≤ (offset + i : Nat) ∧ (offset + i : Nat) < found.node.stop := by
    rw [fits.start, fits.stop]
    omega
  cases cut_lexed h with
  | hashBang => exact .inl ⟨.inr rfl, covers⟩
  | comment dash next h => exact .inl ⟨.inl (comment_isComment h), covers⟩
  | quoted quote h =>
    have ne : c ≠ byte '-' := by
      rcases quote with rfl | rfl <;> decide
    exact quotedString_holds h ne lt pair
  | number => exact absurd pair (leaf_undashed (undashed_numeralLength _) lt)
  | word => exact absurd pair (leaf_undashed (undashed_nameLength _) lt)
  | name => exact absurd pair (leaf_undashed (undashed_nameLength _) lt)
  | long opens enclosed => exact longString_holds opens enclosed lt pair
  | mark found undashed => exact absurd pair (leaf_undashed (undashed_mark found undashed) lt)

/-! ## The whole text -/

theorem cutAll_dashes {soFar cuts : List Node} {offset : Nat}
    (h : cutAll soFar offset bytes = .ok cuts) :
    ∃ more, cuts = soFar.reverse ++ more ∧
      ∀ i, DashesAt bytes i → ∃ n ∈ more, Holds n (offset + i : Nat) := by
  fun_induction cutAll soFar offset bytes with
  | case1 soFar offset =>
    obtain rfl := Except.ok.inj h
    exact ⟨[], by simp, fun i pair => absurd pair.1 (by simp)⟩
  | case2 soFar offset c rest blank ih =>
    obtain ⟨more, whole, holds⟩ := ih h
    refine ⟨more, whole, fun i pair => ?_⟩
    cases i with
    | zero => exact absurd (Option.some.inj pair.1) (ne_dash (by decide) blank)
    | succ i =>
      obtain ⟨n, hn, here⟩ := holds i pair
      exact ⟨n, hn, by rwa [show offset + (i + 1) = offset + 1 + i by omega]⟩
  | case3 => cases h
  | case4 => cases h
  | case5 soFar offset c rest dark node length found ih =>
    obtain ⟨more, whole, holds⟩ := ih h
    refine ⟨node :: more, by simpa using whole, fun i pair => ?_⟩
    by_cases early : i < length + 1
    · exact ⟨node, List.mem_cons_self .., cut_dashes found early pair⟩
    · obtain ⟨n, hn, here⟩ := holds (i - (length + 1)) (pair.drop (Nat.le_of_not_lt early))
      refine ⟨n, List.mem_cons_of_mem _ hn, ?_⟩
      rwa [show offset + i = offset + length + 1 + (i - (length + 1)) by omega]

/-- **Every pair of dashes of a text stands where any text may stand.** -/
theorem tokens_dashes {source : List UInt8} {cuts : List Node} (h : tokens source = .ok cuts)
    {i : Nat} (pair : DashesAt source i) : ∃ n ∈ cuts, Holds n i := by
  unfold tokens at h
  split at h
  · rename_i marked
    obtain ⟨more, rfl, holds⟩ := cutAll_dashes h
    have mark : Undashed source 3 :=
      .of_begins byteOrderMark (by decide) (List.isPrefixOf_iff_prefix.mp marked)
    have after : 3 ≤ i := Nat.le_of_not_lt fun early => mark i early pair
    obtain ⟨n, hn, here⟩ := holds (i - 3) (pair.drop after)
    refine ⟨n, hn, ?_⟩
    rwa [show byteOrderMark.length = 3 from rfl, Nat.add_sub_cancel' after] at here
  · obtain ⟨more, rfl, holds⟩ := cutAll_dashes h
    obtain ⟨n, hn, here⟩ := holds i pair
    exact ⟨n, hn, by rwa [Nat.zero_add] at here⟩

/-! ## What may follow what -/

/-- Cuts as they come in a text: a mark that may be split has no parts, what has the kind of a comment is
one, and before a line with a hash sign stand comments only. -/
structure Orderly (cuts : List Node) : Prop where
  mark : ∀ n ∈ cuts, ¬ Plain n.kind → n.children = []
  comment : ∀ n ∈ cuts, n.kind = "comment" → isComment n = true
  hashBang : cuts.Pairwise fun a b => b.kind = "hash_bang_line" → a.kind = "comment"

theorem kinds_of_reserved : ∀ w ∈ reserved, w ≠ "comment" ∧ w ≠ "hash_bang_line" := by
  decide

theorem kinds_of_marks : ∀ m ∈ marks, m ≠ "comment" ∧ m ≠ "hash_bang_line" := by
  decide

theorem quotedString_kind {offset : Nat} {quote : UInt8} {found : Cut}
    (h : quotedString offset quote rest = .ok found) : found.node.kind = "string" := by
  unfold quotedString at h
  obtain ⟨⟨escapes, close⟩, -, h⟩ := bind_eq_ok.mp h
  obtain rfl := Except.ok.inj h
  rfl

/-- What the row of cuts asks of each. -/
theorem cut_orderly {first : Bool} {offset : Nat} {c : UInt8} {found : Cut}
    (h : cut first offset c rest = .ok found) :
    (¬ Plain found.node.kind → found.node.children = []) ∧
      (found.node.kind = "comment" → isComment found.node = true) ∧
      (found.node.kind = "hash_bang_line" → first = true) := by
  have other {kind : String} (same : found.node.kind = kind)
      (plain : Plain kind ∨ found.node.children = [])
      (kinds : kind ≠ "comment" ∧ kind ≠ "hash_bang_line") :
      (¬ Plain found.node.kind → found.node.children = []) ∧
        (found.node.kind = "comment" → isComment found.node = true) ∧
        (found.node.kind = "hash_bang_line" → first = true) := by
    subst same
    exact ⟨plain.resolve_left, fun same => absurd same kinds.1, fun same => absurd same kinds.2⟩
  cases cut_lexed h with
  | hashBang first =>
    have kinds : "hash_bang_line" ≠ "comment" := by decide
    exact ⟨fun _ => rfl, fun same => absurd same kinds, fun _ => first⟩
  | comment dash next h =>
    have comment := comment_isComment h
    have kind : found.node.kind = "comment" := eq_of_beq (Bool.and_eq_true_iff.mp comment).2
    rw [kind]
    have kinds : "comment" ≠ "hash_bang_line" := by decide
    exact ⟨fun split => absurd (by decide) split, fun _ => comment, fun same => absurd same kinds⟩
  | quoted quote h => exact other (quotedString_kind h) (.inl (by decide)) (by decide)
  | number => exact other (show _ = "number" from rfl) (.inr rfl) (by decide)
  | @word w member => exact other (show _ = w from rfl) (.inr rfl) (kinds_of_reserved w member)
  | name => exact other (show _ = "identifier" from rfl) (.inr rfl) (by decide)
  | long opens enclosed => exact other (show _ = "string" from rfl) (.inl (by decide)) (by decide)
  | @mark m found undashed =>
    exact other (show _ = m from rfl) (.inr rfl) (kinds_of_marks m (List.mem_of_find?_eq_some found))

theorem cutAll_orderly {soFar cuts : List Node} {offset : Nat}
    (h : cutAll soFar offset bytes = .ok cuts) (orderly : Orderly soFar.reverse) :
    Orderly cuts := by
  fun_induction cutAll soFar offset bytes with
  | case1 soFar offset =>
    obtain rfl := Except.ok.inj h
    exact orderly
  | case2 soFar offset c rest blank ih => exact ih h orderly
  | case3 => cases h
  | case4 => cases h
  | case5 soFar offset c rest dark node length found ih =>
    obtain ⟨mark, comment, hashBang⟩ := cut_orderly found
    refine ih h ?_
    rw [List.reverse_cons]
    refine ⟨?_, ?_, ?_⟩
    · exact List.forall_mem_append.mpr ⟨orderly.mark, List.forall_mem_singleton.mpr mark⟩
    · exact List.forall_mem_append.mpr ⟨orderly.comment, List.forall_mem_singleton.mpr comment⟩
    · refine List.pairwise_append.mpr ⟨orderly.hashBang, List.pairwise_singleton _ _, ?_⟩
      intro a before b here same
      obtain rfl := List.mem_singleton.mp here
      have all := List.all_eq_true.mp (hashBang same)
      exact eq_of_beq (all a (List.mem_reverse.mp before))

theorem tokens_orderly {source : List UInt8} {cuts : List Node} (h : tokens source = .ok cuts) :
    Orderly cuts := by
  have start : Orderly [].reverse := ⟨by simp, by simp, .nil⟩
  unfold tokens at h
  split at h
  · exact cutAll_orderly h start
  · exact cutAll_orderly h start

end LuaLint.Lua
