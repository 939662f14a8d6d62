import LuaLint.Lua.Token
import LuaLint.Proofs.Lua.Lexeme
import LuaLint.Proofs.Outcome
import LuaLint.Proofs.Tree.Layout

/-!
# Tokens are laid out

The tokens and comments of a text stand one after the other inside it, none of them is empty, and the
parts of each stand inside it in the same way (`tokens_laidOut`). Whatever is cut at an offset covers
exactly the bytes that it used up (`Cut.Fits`, `cut_fits`), and it is one of a few forms (`Lexed`,
`cut_lexed`), by which each fact about what is cut is proved.
-/

namespace LuaLint.Lua

open Node Outcome

/-- What was cut off the front of `available` bytes covers as many bytes as it says, from `offset` on. -/
structure Cut.Fits (c : Cut) (offset available : Nat) : Prop where
  start : c.node.start = offset
  stop : c.node.stop = offset + c.length
  laidOut : c.node.LaidOut
  length_le : c.length ≤ available

theorem Cut.Fits.of_le {c : Cut} {offset available more : Nat} (h : c.Fits offset available)
    (le : available ≤ more) : c.Fits offset more :=
  { h with length_le := Nat.le_trans h.length_le le }

theorem Cut.Fits.leaf {kind : String} {named : Bool} {offset length available : Nat}
    {text : List UInt8} (le : length ≤ available) :
    Cut.Fits ⟨Node.token kind named offset (offset + length) text, length⟩ offset available :=
  ⟨rfl, rfl, laidOut_token.mpr (by omega), le⟩

/-- Parts that are laid out from one offset to another make a construct that fits. -/
theorem Cut.Fits.construct {kind : String} {offset stop available : Nat} {first last : Node}
    (inner : List Node) (parts : LaidOutAll offset stop (first :: inner ++ [last]))
    (starts : first.start = offset) (stops : last.stop = stop) (le : stop ≤ offset + available) :
    Cut.Fits ⟨Node.construct kind (first :: inner ++ [last]), stop - offset⟩ offset available := by
  have ends : (Node.construct kind (first :: inner ++ [last])).stop = stop := by
    simp only [Node.construct, List.getLast?_concat, Option.map_some, Option.getD_some, stops]
  have proper := parts.low_le_high
  have length : (stop : Int) = offset + (stop - offset : Nat) := by omega
  refine ⟨starts, ends.trans length, ?_, Nat.sub_le_of_le_add (by omega)⟩
  · rw [laidOut_iff, ends]
    change first.start ≤ stop ∧ LaidOutAll first.start stop (first :: inner ++ [last])
    rw [starts]
    exact ⟨proper, parts⟩

/-! ## Strings and comments -/

theorem quotedContent_laidOut {quote : UInt8} {offset close : Nat} {bytes : List UInt8}
    {escapes : List Node} (h : quotedContent quote offset bytes = .ok (escapes, close)) :
    LaidOutAll offset close escapes ∧ close < offset + bytes.length := by
  fun_induction quotedContent quote offset bytes generalizing escapes close with
  | case1 => cases h
  | case2 offset rest =>
    obtain ⟨rfl, rfl⟩ := Prod.mk.inj (Except.ok.inj h)
    exact ⟨laidOutAll_nil.mpr (Int.le_refl _), by simp⟩
  | case3 => cases h
  | case4 =>
    rename_i offset rest length some stop other escape ih
    obtain ⟨⟨later, last⟩, others, h⟩ := bind_eq_ok.mp h
    obtain ⟨rfl, rfl⟩ := Prod.mk.inj (Except.ok.inj h)
    obtain ⟨inner, before⟩ := ih others
    have fits : length ≤ rest.length := escapeLength_le rest
    have ends : stop = offset + 1 + length := rfl
    rw [List.length_drop] at before
    rw [List.length_cons]
    refine ⟨laidOutAll_cons.mpr ⟨Int.le_refl _, laidOut_token.mpr ?_, inner⟩, ?_⟩
    · omega
    · omega
  | case5 =>
    rename_i offset c rest other plain ih
    obtain ⟨inner, before⟩ := ih h
    rw [List.length_cons]
    exact ⟨inner.of_le (by omega), by omega⟩

theorem quotedString_fits {offset : Nat} {quote : UInt8} {rest : List UInt8} {c : Cut}
    (h : quotedString offset quote rest = .ok c) : c.Fits offset (rest.length + 1) := by
  unfold quotedString at h
  obtain ⟨⟨escapes, close⟩, content, h⟩ := bind_eq_ok.mp h
  obtain rfl := Except.ok.inj h
  obtain ⟨inner, before⟩ := quotedContent_laidOut content
  have le := inner.low_le_high
  have middle (content : Node) (starts : content.start = (offset + 1 : Nat))
      (stops : content.stop = close) (parts : content.children = escapes) :
      LaidOutAll (offset + 1 : Nat) close (if close = offset + 1 then [] else [content]) := by
    split
    · exact laidOutAll_nil.mpr le
    · rw [laidOutAll_cons, laidOut_iff, starts, stops, parts]
      exact ⟨Int.le_refl _, ⟨le, inner⟩, laidOutAll_nil.mpr (Int.le_refl _)⟩
  have opening (mark : String) : (token mark false offset (offset + 1) [quote]).LaidOut :=
    laidOut_token.mpr (by omega)
  have closing (mark : String) : (token mark false close (close + 1) [quote]).LaidOut :=
    laidOut_token.mpr (by omega)
  refine Cut.Fits.construct _ (laidOutAll_append.mpr ⟨close, ?_, ?_⟩) rfl rfl (by omega)
  · exact laidOutAll_cons.mpr ⟨Int.le_refl _, opening _, middle _ rfl rfl rfl⟩
  · exact laidOutAll_cons.mpr ⟨Int.le_refl _, closing _, laidOutAll_nil.mpr (Int.le_refl _)⟩

/-- What a long bracket encloses fits, from the offset on where the bracket is said to start. -/
theorem longParts_fits {contentKind kind : String} {first offset level stop : Nat}
    {rest : List UInt8} {parts : List Node} (le : first ≤ offset)
    (h : longParts contentKind first offset level rest = .ok (parts, stop)) :
    Cut.Fits ⟨Node.construct kind parts, stop - first⟩ first (offset + rest.length - first) := by
  unfold longParts at h
  split at h
  · cases h
  · rename_i length content
    obtain ⟨rfl, rfl⟩ := Prod.mk.inj (Except.ok.inj h)
    have inside := longContent?_le content
    refine Cut.Fits.construct [_] ?_ rfl rfl (by omega)
    simp only [List.cons_append, List.nil_append, laidOutAll_cons, laidOutAll_nil, laidOut_token,
      token_start, token_stop]
    omega

theorem lineComment_fits (offset length : Nat) (text : List UInt8) :
    Cut.Fits ⟨construct "comment" [Node.token "--" false offset (offset + 2) [],
      Node.token "comment_content" true (offset + 2) (offset + 2 + length) text], 2 + length⟩
      offset (2 + length) := by
  have parts : LaidOutAll offset (offset + 2 + length : Nat)
      [Node.token "--" false offset (offset + 2) [],
        Node.token "comment_content" true (offset + 2) (offset + 2 + length) text] := by
    simp only [laidOutAll_cons, laidOutAll_nil, laidOut_token, token_start, token_stop]
    omega
  have fits : Cut.Fits ⟨construct "comment" _, offset + 2 + length - offset⟩ offset (2 + length) :=
    .construct [] parts rfl rfl (by omega)
  have used : offset + 2 + length - offset = 2 + length := by omega
  rwa [used] at fits

theorem comment_fits {offset : Nat} {rest : List UInt8} {c : Cut}
    (h : comment offset rest = .ok c) : c.Fits offset (rest.length + 2) := by
  unfold comment at h
  split at h
  · rename_i level opens
    obtain ⟨⟨parts, stop⟩, enclosed, h⟩ := bind_eq_ok.mp h
    obtain rfl := Except.ok.inj h
    have inside := longOpening?_le opens
    have more : offset + 2 + (level + 2) + (rest.drop (level + 2)).length - offset ≤
        rest.length + 2 := by
      rw [List.length_drop]
      omega
    exact (longParts_fits (by omega) enclosed).of_le more
  · obtain rfl := Except.ok.inj h
    have inside := run_le (fun b => b != byte '\n' && b != byte '\r') rest
    generalize run (fun b => b != byte '\n' && b != byte '\r') rest = length at inside
    have fits := lineComment_fits offset length (rest.take length)
    exact fits.of_le (by omega)

/-! ## One token -/

/-- A token of the given length at the front of the bytes. -/
def leaf (kind : String) (named : Bool) (offset length : Nat) (bytes : List UInt8) : Cut :=
  ⟨Node.token kind named offset (offset + length) (bytes.take length), length⟩

/-- What is cut off the front of `c :: rest`, by what it is. -/
inductive Lexed (first : Bool) (offset : Nat) (c : UInt8) (rest : List UInt8) : Cut → Prop
  | hashBang : first = true →
      Lexed first offset c rest
        (leaf "hash_bang_line" true offset (run (· != byte '\n') (c :: rest)) (c :: rest))
  | comment {found : Cut} : c = byte '-' → rest.head? = some (byte '-') →
      comment offset (rest.drop 1) = .ok found → Lexed first offset c rest found
  | quoted {found : Cut} : c = byte '"' ∨ c = byte '\'' → quotedString offset c rest = .ok found →
      Lexed first offset c rest found
  | number : Lexed first offset c rest
      (leaf "number" true offset (numeralLength (c :: rest)) (c :: rest))
  | word {w : String} : w ∈ reserved →
      Lexed first offset c rest (leaf w false offset (nameLength (c :: rest)) (c :: rest))
  | name : Lexed first offset c rest
      (leaf "identifier" true offset (nameLength (c :: rest)) (c :: rest))
  | long {level stop : Nat} {parts : List Node} : longOpening? (c :: rest) = some level →
      longParts "string_content" offset (offset + (level + 2)) level
        ((c :: rest).drop (level + 2)) = .ok (parts, stop) →
      Lexed first offset c rest ⟨Node.construct "string" parts, stop - offset⟩
  | mark {m : String} : mark? (c :: rest) = some m →
      ¬ (c = byte '-' ∧ rest.head? = some (byte '-')) →
      Lexed first offset c rest (leaf m false offset (Utf8.encode m).length (c :: rest))

theorem cut_lexed {first : Bool} {offset : Nat} {c : UInt8} {rest : List UInt8} {found : Cut}
    (h : cut first offset c rest = .ok found) : Lexed first offset c rest found := by
  unfold cut at h
  dsimp only at h
  split at h
  · rename_i opens
    obtain rfl := Except.ok.inj h
    exact .hashBang (Bool.and_eq_true_iff.mp opens).1
  · split at h
    · rename_i dashes
      obtain ⟨dash, next⟩ := Bool.and_eq_true_iff.mp dashes
      exact .comment (of_decide_eq_true dash) (of_decide_eq_true next) h
    · rename_i undashed
      split at h
      · rename_i quote
        exact .quoted (by simpa using quote) h
      · split at h
        · obtain rfl := Except.ok.inj h
          exact .number
        · split at h
          · split at h
            · rename_i w found
              obtain rfl := Except.ok.inj h
              exact .word (List.mem_of_find?_eq_some found)
            · obtain rfl := Except.ok.inj h
              exact .name
          · split at h
            · rename_i level opens
              obtain ⟨⟨parts, stop⟩, enclosed, h⟩ := bind_eq_ok.mp h
              obtain rfl := Except.ok.inj h
              exact .long opens enclosed
            · split at h
              · rename_i m found
                obtain rfl := Except.ok.inj h
                exact .mark found (by simpa using undashed)
              · cases h

/-- **What is cut off covers exactly the bytes that were used up.** -/
theorem cut_fits {first : Bool} {offset : Nat} {c : UInt8} {rest : List UInt8} {found : Cut}
    (h : cut first offset c rest = .ok found) : found.Fits offset (rest.length + 1) := by
  cases cut_lexed h with
  | hashBang => exact .leaf (run_le _ (c :: rest))
  | comment dash next h =>
    have some : 0 < rest.length := by
      apply List.length_pos_iff.mpr
      rintro rfl
      cases next
    have more : (rest.drop 1).length + 2 ≤ rest.length + 1 := by
      rw [List.length_drop]
      omega
    exact (comment_fits h).of_le more
  | quoted quote h => exact quotedString_fits h
  | number => exact .leaf (numeralLength_le (c :: rest))
  | word => exact .leaf (nameLength_le (c :: rest))
  | name => exact .leaf (nameLength_le (c :: rest))
  | @long level stop parts opens enclosed =>
    have inside := longOpening?_le opens
    have more : offset + (level + 2) + ((c :: rest).drop (level + 2)).length - offset ≤
        rest.length + 1 := by
      rw [List.length_drop]
      rw [List.length_cons] at *
      omega
    exact (longParts_fits (by omega) enclosed).of_le more
  | mark found => exact .leaf (mark?_le found)

/-! ## The whole text -/

theorem cutAll_laidOut {soFar cuts : List Node} {offset : Nat} {bytes : List UInt8}
    (h : cutAll soFar offset bytes = .ok cuts) :
    ∃ more, cuts = soFar.reverse ++ more ∧ LaidOutAll offset (offset + bytes.length : Nat) more ∧
      ∀ n ∈ more, n.start < n.stop := by
  fun_induction cutAll soFar offset bytes with
  | case1 soFar offset =>
    obtain rfl := Except.ok.inj h
    exact ⟨[], by simp, by simp, by simp⟩
  | case2 soFar offset c rest blank ih =>
    obtain ⟨more, whole, laidOut, wide⟩ := ih h
    rw [List.length_cons]
    refine ⟨more, whole, ?_, wide⟩
    rw [show offset + (rest.length + 1) = offset + 1 + rest.length by omega]
    exact laidOut.of_le (by omega)
  | case3 => cases h
  | case4 => cases h
  | case5 soFar offset c rest dark node length found ih =>
    obtain ⟨more, whole, laidOut, wide⟩ := ih h
    obtain ⟨starts, stops, node_laidOut, fits⟩ := cut_fits found
    dsimp only at starts stops fits
    rw [List.length_drop] at laidOut
    refine ⟨node :: more, by simpa using whole, ?_, ?_⟩
    · rw [List.length_cons, show offset + (rest.length + 1) =
        offset + length + 1 + (rest.length - length) by omega]
      exact laidOutAll_cons.mpr ⟨by omega, node_laidOut, laidOut.of_le (by omega)⟩
    · intro n hn
      rcases List.mem_cons.mp hn with rfl | hn
      · omega
      · exact wide n hn

/-- **The tokens and comments of a text are laid out inside it**, and none of them is empty. -/
theorem tokens_laidOut {source : List UInt8} {cuts : List Node} (h : tokens source = .ok cuts) :
    LaidOutAll 0 source.length cuts ∧ ∀ n ∈ cuts, n.start < n.stop := by
  unfold tokens at h
  split at h
  · rename_i marked
    obtain ⟨more, rfl, laidOut, wide⟩ := cutAll_laidOut h
    have length : byteOrderMark.length ≤ source.length :=
      (List.isPrefixOf_iff_prefix.mp marked).length_le
    have whole : byteOrderMark.length + (source.drop 3).length = source.length := by
      rw [List.length_drop]
      change 3 ≤ source.length at length
      change 3 + (source.length - 3) = source.length
      omega
    rw [whole] at laidOut
    exact ⟨laidOut.of_le (by omega), wide⟩
  · obtain ⟨more, rfl, laidOut, wide⟩ := cutAll_laidOut h
    rw [Nat.zero_add] at laidOut
    exact ⟨laidOut, wide⟩

end LuaLint.Lua
