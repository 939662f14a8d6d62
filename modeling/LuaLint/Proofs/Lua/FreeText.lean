import LuaLint.Proofs.Lua.Dashes
import LuaLint.Proofs.Lua.Readers
import LuaLint.Proofs.Tree.Parser
import LuaLint.Tree.Traversal
import Mathlib.Data.List.TakeDrop

/-!
# Free text in the tree of a Lua text

Nothing that was cut off a text is lost on the way to its tree. Grouping leaves the parts of strings where
they are (`Grouped.parts`), the line with a hash sign becomes a child of the root (`chunk_hashBang`), and
putting the comments back keeps every node and every comment (`weaveAll_keeps`). So what may be any text
shows in each of the three rows on the way: in the cuts (`Holds.shows`), among the statements
(`chunk_shows`), and in the two put together (`Shows.weaveAll`).

A pair of dashes in a text that can be read therefore shows in its tree: it lies in a comment, in the
content of a string, or in the line with a hash sign (`read_dashes`).
-/

namespace LuaLint

namespace Node

variable {n m : Node} {row rest children comments : List Node}

/-- The kinds of the nodes in which any text may stand. -/
def freeKinds : List String := "comment" :: literalKinds

/-- The second node is the first one, perhaps with other children. -/
structure Same (n m : Node) : Prop where
  kind : m.kind = n.kind
  start : m.start = n.start
  stop : m.stop = n.stop

theorem Same.refl (n : Node) : Same n n := ⟨rfl, rfl, rfl⟩

/-! ## Putting comments back -/

mutual

theorem weave_keeps : ∀ (n : Node) (comments : List Node) (m : Node),
    m ∈ n.preorder ∨ m ∈ preorderAll comments → ∃ k ∈ (n.weave comments).preorder, Same m k
  | n, [], m, h => by
    rw [weave]
    rcases h with below | comment
    · exact ⟨m, below, .refl m⟩
    · simp [preorderAll] at comment
  | ⟨kind, named, missing, damaged, start, stop, text, field, children⟩, c :: comments, m, h => by
    rw [weave]
    · rw [preorder_eq, List.mem_cons] at h
      by_cases top : m = ⟨kind, named, missing, damaged, start, stop, text, field, children⟩
      · subst top
        refine ⟨⟨kind, named, missing, damaged, start, stop, text, field,
          weaveAll children (c :: comments)⟩, ?_, ⟨rfl, rfl, rfl⟩⟩
        rw [preorder_eq]
        exact List.mem_cons_self ..
      · have inner : m ∈ preorderAll children ∨ m ∈ preorderAll (c :: comments) :=
          h.imp_left fun below => below.resolve_left top
        obtain ⟨k, hk, same⟩ := weaveAll_keeps children (c :: comments) m inner
        refine ⟨k, ?_, same⟩
        rw [preorder_eq]
        exact List.mem_cons_of_mem _ hk
    · simp

/-- **Putting comments back keeps every node and every comment.** -/
theorem weaveAll_keeps : ∀ (row comments : List Node) (m : Node),
    m ∈ preorderAll row ∨ m ∈ preorderAll comments →
      ∃ k ∈ preorderAll (weaveAll row comments), Same m k
  | [], comments, m, h => by
    rw [weaveAll]
    rcases h with below | comment
    · simp [preorderAll] at below
    · exact ⟨m, comment, .refl m⟩
  | n :: rest, comments, m, h => by
    rw [weaveAll]
    simp only [List.span_eq_takeWhile_dropWhile]
    generalize early : comments.takeWhile (·.stop ≤ n.start) = before
    generalize late : comments.dropWhile (·.stop ≤ n.start) = others
    generalize inner : others.takeWhile (·.stop ≤ n.stop) = inside
    generalize outer : others.dropWhile (·.stop ≤ n.stop) = after
    have whole : comments = before ++ (inside ++ after) := by
      rw [← inner, ← outer, List.takeWhile_append_dropWhile, ← early, ← late,
        List.takeWhile_append_dropWhile]
    rw [whole, preorderAll_append, preorderAll_append] at h
    rw [preorderAll_append, preorderAll]
    simp only [preorderAll, List.mem_append] at h ⊢
    rcases h with (top | later) | atFront | within | behind
    · obtain ⟨k, hk, same⟩ := weave_keeps n inside m (.inl top)
      exact ⟨k, .inr (.inl hk), same⟩
    · obtain ⟨k, hk, same⟩ := weaveAll_keeps rest after m (.inl later)
      exact ⟨k, .inr (.inr hk), same⟩
    · exact ⟨m, .inl atFront, .refl m⟩
    · obtain ⟨k, hk, same⟩ := weave_keeps n inside m (.inr within)
      exact ⟨k, .inr (.inl hk), same⟩
    · obtain ⟨k, hk, same⟩ := weaveAll_keeps rest after m (.inr behind)
      exact ⟨k, .inr (.inr hk), same⟩

end

end Node

namespace Lua

open Node Outcome

variable {row children : List Node} {n m : Node}

/-! ## Grouping -/

/-- The node is below one of the row. -/
def Part (row : List Node) (m : Node) : Prop := ∃ n ∈ row, m ∈ preorderAll n.children

theorem Part.mem (h : Part row m) : m ∈ preorderAll row := by
  obtain ⟨n, hn, below⟩ := h
  refine mem_preorderAll.mpr ⟨n, hn, ?_⟩
  rw [preorder_eq]
  exact List.mem_cons_of_mem _ below

/-- A mark that may be split has no parts. -/
def Leaves (row : List Node) : Prop := ∀ n ∈ row, ¬ Plain n.kind → n.children = []

/-- **Grouping leaves the parts of nodes where they are.** -/
theorem Grouped.parts {a b : List Node} (grouping : Grouped a b) (leaves : Leaves a) :
    Leaves b ∧ ∀ m, Part a m → Part b m := by
  induction grouping with
  | refl => exact ⟨leaves, fun _ h => h⟩
  | trans _ _ first second =>
    obtain ⟨middle, toMiddle⟩ := first leaves
    obtain ⟨last, toLast⟩ := second middle
    exact ⟨last, fun m h => toLast m (toMiddle m h)⟩
  | cons n _ ih =>
    obtain ⟨first, others⟩ := List.forall_mem_cons.mp leaves
    obtain ⟨later, toLater⟩ := ih others
    refine ⟨List.forall_mem_cons.mpr ⟨first, later⟩, ?_⟩
    rintro m ⟨k, hk, below⟩
    rcases List.mem_cons.mp hk with rfl | hk
    · exact ⟨k, List.mem_cons_self .., below⟩
    · obtain ⟨k, hk, below⟩ := toLater m ⟨k, hk, below⟩
      exact ⟨k, List.mem_cons_of_mem _ hk, below⟩
  | @construct kind children rest plain some =>
    constructor
    · refine List.forall_mem_cons.mpr ⟨fun split => absurd plain split, fun n hn => ?_⟩
      exact leaves n (List.mem_append_right _ hn)
    · rintro m ⟨k, hk, below⟩
      rcases List.mem_append.mp hk with child | later
      · exact ⟨_, List.mem_cons_self .., Part.mem ⟨k, child, below⟩⟩
      · exact ⟨k, List.mem_cons_of_mem _ later, below⟩
  | @rename n n' rest start stop same kind =>
    obtain ⟨first, others⟩ := List.forall_mem_cons.mp leaves
    constructor
    · refine List.forall_mem_cons.mpr ⟨fun split => ?_, others⟩
      rw [same]
      rcases kind with kept | plain
      · exact first (kept ▸ split)
      · exact absurd plain split
    · rintro m ⟨k, hk, below⟩
      rcases List.mem_cons.mp hk with rfl | later
      · exact ⟨n', List.mem_cons_self .., by rwa [same]⟩
      · exact ⟨k, List.mem_cons_of_mem _ later, below⟩
  | @split t kind rest mark plain =>
    obtain ⟨first, others⟩ := List.forall_mem_cons.mp leaves
    constructor
    · refine List.forall_mem_cons.mpr ⟨fun _ => rfl, List.forall_mem_cons.mpr ⟨fun _ => rfl, others⟩⟩
    · rintro m ⟨k, hk, below⟩
      rcases List.mem_cons.mp hk with rfl | later
      · rw [first mark] at below
        simp [preorderAll] at below
      · exact ⟨k, List.mem_cons_of_mem _ (List.mem_cons_of_mem _ later), below⟩

/-- The line with a hash sign becomes a child of the root. -/
theorem chunk_hashBang {t : Node} {rest : List Node} (h : chunk (t :: rest) = .ok children)
    (kind : t.kind = "hash_bang_line") : t ∈ children := by
  unfold chunk at h
  dsimp only at h
  rw [if_pos kind] at h
  obtain ⟨statements, r, hr, read, h⟩ := of_step h
  dsimp only at h
  split at h
  · obtain rfl := Except.ok.inj h
    exact List.mem_cons_self ..
  · cases h

/-! ## The tree -/

/-- A line with a hash sign is the first token. -/
theorem hashBang_mem_of_chunk {cuts : List Node}
    (h : chunk (cuts.filter (!isComment ·)) = .ok children) (orderly : Orderly cuts)
    (hn : n ∈ cuts.filter (!isComment ·)) (kind : n.kind = "hash_bang_line") : n ∈ children := by
  have ordered := orderly.hashBang.filter (!isComment ·)
  have tokens (t : Node) (ht : t ∈ cuts.filter (!isComment ·)) : t.kind ≠ "comment" := by
    obtain ⟨inCuts, other⟩ := List.mem_filter.mp ht
    intro comment
    rw [orderly.comment t inCuts comment] at other
    cases other
  generalize cuts.filter (!isComment ·) = row at h ordered tokens hn
  cases row with
  | nil => cases hn
  | cons t rest =>
    rcases List.mem_cons.mp hn with rfl | later
    · exact chunk_hashBang h kind
    · have first := (List.pairwise_cons.mp ordered).1 n later kind
      exact absurd first (tokens t (List.mem_cons_self ..))

/-- A node in which any text may stand covers the offset, and it is one of the row or below one. -/
def Shows (row : List Node) (offset : Int) : Prop :=
  ∃ m ∈ preorderAll row, m.kind ∈ freeKinds ∧ m.start ≤ offset ∧ offset < m.stop

theorem Holds.shows {offset : Int} (holds : Holds n offset) (hn : n ∈ row) : Shows row offset := by
  rcases holds with ⟨free, starts, stops⟩ | ⟨m, hm, content, starts, stops⟩
  · have kind : n.kind ∈ freeKinds := by
      rcases free with comment | hashBang
      · have kind : n.kind = "comment" := eq_of_beq (Bool.and_eq_true_iff.mp comment).2
        simp [kind, freeKinds, literalKinds]
      · simp [hashBang, freeKinds, literalKinds]
    exact ⟨n, mem_preorderAll_of_mem hn, kind, starts, stops⟩
  · have below : Part row m := ⟨n, hn, mem_preorderAll_of_mem hm⟩
    exact ⟨m, below.mem, by simp [content, freeKinds, literalKinds], starts, stops⟩

/-- What a token holds shows among the statements. -/
theorem chunk_shows {cuts : List Node} {offset : Int}
    (h : chunk (cuts.filter (!isComment ·)) = .ok children) (orderly : Orderly cuts)
    (hn : n ∈ cuts.filter (!isComment ·)) (holds : Holds n offset) : Shows children offset := by
  rcases holds with ⟨free, covers⟩ | ⟨m, hm, content, starts, stops⟩
  · have noComment : ¬ isComment n = true := by simpa using (List.mem_filter.mp hn).2
    have kind : n.kind = "hash_bang_line" := free.resolve_left noComment
    have child : n ∈ children := hashBang_mem_of_chunk h orderly hn kind
    exact Holds.shows (.inl ⟨free, covers⟩) child
  · have leaves : Leaves (cuts.filter (!isComment ·)) :=
      fun n hn => orderly.mark n (List.mem_filter.mp hn).1
    obtain ⟨-, keeps⟩ := (chunk_grouped h).parts leaves
    have below : Part children m := keeps m ⟨n, hn, mem_preorderAll_of_mem hm⟩
    exact ⟨m, below.mem, by simp [content, freeKinds, literalKinds], starts, stops⟩

/-- What shows among the statements or among the comments still shows when they are put together. -/
theorem Shows.weaveAll {comments : List Node} {offset : Int}
    (h : Shows row offset ∨ Shows comments offset) :
    Shows (Node.weaveAll row comments) offset := by
  obtain ⟨m, hm, free, starts, stops⟩ : ∃ m,
      (m ∈ preorderAll row ∨ m ∈ preorderAll comments) ∧
        m.kind ∈ freeKinds ∧ m.start ≤ offset ∧ offset < m.stop := by
    rcases h with ⟨m, hm, free⟩ | ⟨m, hm, free⟩
    · exact ⟨m, .inl hm, free⟩
    · exact ⟨m, .inr hm, free⟩
  obtain ⟨k, hk, same⟩ := weaveAll_keeps row comments m hm
  exact ⟨k, hk, same.kind ▸ free, same.start ▸ starts, same.stop ▸ stops⟩

/-- **What the row of cuts holds shows below the root.** -/
theorem root_dashes {length : Nat} {cuts : List Node} {tree : Node} {offset : Int}
    (h : root length cuts = .ok tree) (orderly : Orderly cuts)
    (holds : ∃ n ∈ cuts, Holds n offset) :
    ∃ m ∈ tree.preorder, m.kind ∈ freeKinds ∧ m.start ≤ offset ∧ offset < m.stop := by
  unfold root at h
  rw [List.partition_eq_filter_filter] at h
  dsimp only at h
  obtain ⟨children, read, h⟩ := bind_eq_ok.mp h
  obtain rfl := Except.ok.inj h
  obtain ⟨n, hn, holds⟩ := holds
  have shows : Shows children offset ∨ Shows (cuts.filter isComment) offset := by
    by_cases comment : isComment n = true
    · exact .inr (holds.shows (List.mem_filter.mpr ⟨hn, comment⟩))
    · have token : n ∈ cuts.filter (!isComment ·) :=
        List.mem_filter.mpr ⟨hn, by simpa using comment⟩
      exact .inl (chunk_shows read orderly token holds)
  obtain ⟨k, hk, free⟩ := Shows.weaveAll shows
  refine ⟨k, ?_, free⟩
  rw [preorder_eq]
  exact List.mem_cons_of_mem _ hk

/-- **Every pair of dashes of a text that can be read** lies in a comment of its tree, in the content of
a string, or in the line with a hash sign. -/
theorem read_dashes {source : List UInt8} {tree : Node} (h : parser.read source = .ok tree) {offset : Nat}
    (pair : Source.DashesAt source offset) :
    ∃ m ∈ tree.preorder, m.kind ∈ freeKinds ∧ m.start ≤ offset ∧ offset < m.stop := by
  obtain ⟨cuts, cut, rooted⟩ := root_of_read h
  exact root_dashes rooted (tokens_orderly cut) (tokens_dashes cut pair)

/-- This parser makes every comment a node. -/
theorem parser_keepsComments : parser.KeepsComments := by
  intro source tree read offset dashes outside
  obtain ⟨m, hm, free, covers⟩ := read_dashes read dashes
  rcases List.mem_cons.mp free with comment | literal
  · exact ⟨m, hm, comment, covers⟩
  · exact absurd covers (outside m hm literal)

end Lua

end LuaLint
