import LuaLint.Lua.Tree
import LuaLint.Proofs.Lua.Readers
import LuaLint.Proofs.Lua.Token
import LuaLint.Proofs.Tree.Parser
import Mathlib.Data.List.Pairwise
import Mathlib.Data.List.TakeDrop

/-!
# The trees of Lua texts are laid out

In the tree that is read from a text, each child lies inside its parent, siblings do not overlap, and the
root stays inside the text (`read_laidOut`). So their ranges are proper (`parser_proper`).

The tokens of a text are laid out, and what grouping does to a row keeps it so (`Row.grouped`). Then the
comments are put back. No comment cuts across a token, and so none cuts across a construct (`Spares`):
each lies before it, after it, or inside it among its children. This is all that `weaveAll` needs
(`weaveAll_laidOut`).
-/

namespace LuaLint

namespace Node

/-! ## Comments beside nodes -/

mutual

/-- The comment `c` lies before the node, after it, or inside it, and there it spares the children. -/
def Spares (c : Node) : Node → Prop
  | ⟨_, _, _, _, start, stop, _, _, children⟩ =>
    c.stop ≤ start ∨ stop ≤ c.start ∨ (start ≤ c.start ∧ c.stop ≤ stop ∧ SparesAll c children)

/-- The comment `c` spares all of the nodes. -/
def SparesAll (c : Node) : List Node → Prop
  | [] => True
  | n :: rest => Spares c n ∧ SparesAll c rest

end

variable {low high : Int} {c n : Node} {row rest comments children : List Node}

theorem spares_iff : Spares c n ↔ c.stop ≤ n.start ∨ n.stop ≤ c.start ∨
    (n.start ≤ c.start ∧ c.stop ≤ n.stop ∧ SparesAll c n.children) := by
  cases n
  simp only [Spares]

theorem sparesAll_iff : SparesAll c row ↔ ∀ n ∈ row, Spares c n := by
  induction row with
  | nil => simp [SparesAll]
  | cons n rest ih => simp [SparesAll, ih]

/-- **A comment that spares siblings spares the construct that is made of them.** -/
theorem spares_construct (kind : String) (laidOut : LaidOutAll low high (children ++ rest))
    (some : children ≠ []) (spares : SparesAll c children) :
    Spares c (construct kind children) := by
  rw [sparesAll_iff] at spares
  have first := spares_iff.mp (spares _ (List.head_mem some))
  have last := spares_iff.mp (spares _ (List.getLast_mem some))
  have left := (laidOut.bounds (List.mem_append_left rest (List.head_mem some))).2.1.start_le_stop
  have right :=
    (laidOut.bounds (List.mem_append_left rest (List.getLast_mem some))).2.1.start_le_stop
  rw [spares_iff, sparesAll_iff]
  simp only [construct, List.head?_eq_some_head some, List.getLast?_eq_some_getLast some,
    Option.map_some, Option.getD_some]
  by_cases before : c.stop ≤ (children.head some).start
  · exact .inl before
  · by_cases after : (children.getLast some).stop ≤ c.start
    · exact .inr (.inl after)
    · exact .inr (.inr ⟨by omega, by omega, spares⟩)

/-! ## Weaving -/

@[simp] theorem weave_start (n : Node) (comments : List Node) :
    (n.weave comments).start = n.start := by
  cases comments <;> cases n <;> simp [weave]

@[simp] theorem weave_stop (n : Node) (comments : List Node) : (n.weave comments).stop = n.stop := by
  cases comments <;> cases n <;> simp [weave]

/-- Comments that are left after those that stop early stop late. -/
theorem LaidOutAll.lt_stop_of_mem_dropWhile {offset : Int} (h : LaidOutAll low high row)
    (hc : c ∈ row.dropWhile (·.stop ≤ offset)) : offset < c.stop := by
  induction row generalizing low with
  | nil => cases hc
  | cons n rest ih =>
    obtain ⟨after, node, later⟩ := laidOutAll_cons.mp h
    rw [List.dropWhile_cons] at hc
    split at hc
    · exact ih later hc
    · rename_i late
      have late : offset < n.stop := by simpa using late
      rcases List.mem_cons.mp hc with rfl | hc
      · exact late
      · obtain ⟨start, c_laidOut, -⟩ := later.bounds hc
        have := c_laidOut.start_le_stop
        omega

/-- A row is laid out between any two offsets between which its nodes are. -/
theorem LaidOutAll.within {lower upper : Int} (h : LaidOutAll low high row) (le : lower ≤ upper)
    (starts : ∀ n ∈ row, lower ≤ n.start) (stops : ∀ n ∈ row, n.stop ≤ upper) :
    LaidOutAll lower upper row := by
  induction row generalizing low lower with
  | nil => exact laidOutAll_nil.mpr le
  | cons n rest ih =>
    obtain ⟨after, node, later⟩ := laidOutAll_cons.mp h
    rw [laidOutAll_cons]
    refine ⟨starts n (by simp), node, ih later (stops n (by simp)) ?_ ?_⟩
    · intro m hm
      exact (later.bounds hm).1
    · intro m hm
      exact stops m (by simp [hm])

theorem mem_of_mem_takeWhile {p : Node → Bool} (hc : c ∈ row.takeWhile p) : c ∈ row ∧ p c = true :=
  ⟨(List.takeWhile_sublist p).subset hc, List.all_eq_true.mp (List.all_takeWhile) c hc⟩

section around

variable (inRow : LaidOutAll low high (n :: rest)) (laidOut : LaidOutAll low high comments)
include inRow laidOut

/-- The comments that stop before a node starts lie before it. -/
theorem before_laidOut : LaidOutAll low n.start (comments.takeWhile (·.stop ≤ n.start)) := by
  obtain ⟨after, node, later⟩ := laidOutAll_cons.mp inRow
  refine (laidOut.sublist (List.takeWhile_sublist _)).within after ?_ ?_
  · intro c hc
    exact (laidOut.bounds (mem_of_mem_takeWhile hc).1).1
  · intro c hc
    simpa using (mem_of_mem_takeWhile hc).2

variable (wide : ∀ c ∈ comments, c.start < c.stop) (spared : ∀ c ∈ comments, Spares c n)
include wide spared

/-- Of the others, those that stop before the node does lie inside it. -/
theorem inside_laidOut : let inside :=
      (comments.dropWhile (·.stop ≤ n.start)).takeWhile (·.stop ≤ n.stop)
    LaidOutAll n.start n.stop inside ∧ ∀ c ∈ inside, SparesAll c n.children := by
  intro inside
  obtain ⟨after, node, later⟩ := laidOutAll_cons.mp inRow
  have part : inside.Sublist comments :=
    (List.takeWhile_sublist _).trans (List.dropWhile_sublist _)
  have within (c : Node) (hc : c ∈ inside) :
      n.start ≤ c.start ∧ c.stop ≤ n.stop ∧ SparesAll c n.children := by
    obtain ⟨late, stops⟩ := mem_of_mem_takeWhile hc
    have starts := laidOut.lt_stop_of_mem_dropWhile late
    have stops : c.stop ≤ n.stop := by simpa using stops
    have proper := wide c (part.subset hc)
    rcases spares_iff.mp (spared c (part.subset hc)) with left | right | inner
    · omega
    · omega
    · exact inner
  refine ⟨(laidOut.sublist part).within node.start_le_stop ?_ ?_, ?_⟩
  · intro c hc
    exact (within c hc).1
  · intro c hc
    exact (within c hc).2.1
  · intro c hc
    exact (within c hc).2.2

omit wide in
/-- The rest of them lie after the node. -/
theorem after_laidOut : LaidOutAll n.stop high
    ((comments.dropWhile (·.stop ≤ n.start)).dropWhile (·.stop ≤ n.stop)) := by
  obtain ⟨after, node, later⟩ := laidOutAll_cons.mp inRow
  have late := laidOut.sublist (List.dropWhile_sublist (·.stop ≤ n.start))
  have part := (List.dropWhile_sublist (l := comments.dropWhile (·.stop ≤ n.start))
    (·.stop ≤ n.stop)).trans (List.dropWhile_sublist _)
  refine (laidOut.sublist part).within later.low_le_high ?_ ?_
  · intro c hc
    have stops := late.lt_stop_of_mem_dropWhile hc
    have := node.start_le_stop
    rcases spares_iff.mp (spared c (part.subset hc)) with left | right | inner
    · omega
    · exact right
    · omega
  · intro c hc
    exact (laidOut.bounds (part.subset hc)).2.2

end around

mutual

theorem weave_laidOut : ∀ {n : Node} {comments : List Node}, n.LaidOut →
    LaidOutAll n.start n.stop comments → (∀ c ∈ comments, c.start < c.stop) →
    (∀ c ∈ comments, SparesAll c n.children) → (n.weave comments).LaidOut
  | n, [], h, _, _, _ => by
    rw [weave]
    exact h
  | ⟨kind, named, missing, damaged, start, stop, text, field, children⟩, c :: comments,
      h, inside, wide, spared => by
    obtain ⟨le, inner⟩ := laidOut_iff.mp h
    rw [weave, laidOut_iff]
    · exact ⟨le, weaveAll_laidOut inner inside wide spared⟩
    · simp

/-- **Comments that spare a row can be put into it.** -/
theorem weaveAll_laidOut : ∀ {low high : Int} {row comments : List Node}, LaidOutAll low high row →
    LaidOutAll low high comments → (∀ c ∈ comments, c.start < c.stop) →
    (∀ c ∈ comments, SparesAll c row) → LaidOutAll low high (weaveAll row comments)
  | _, _, [], comments, _, laidOut, _, _ => by
    rw [weaveAll]
    exact laidOut
  | low, high, n :: rest, comments, h, laidOut, wide, spared => by
    obtain ⟨after, node, later⟩ := laidOutAll_cons.mp h
    have early := before_laidOut h laidOut
    have sparesFirst (c : Node) (hc : c ∈ comments) : Spares c n := (spared c hc).1
    obtain ⟨inner, innerSpared⟩ := inside_laidOut h laidOut wide sparesFirst
    have outer := after_laidOut h laidOut sparesFirst
    have insideSub : ((comments.dropWhile (·.stop ≤ n.start)).takeWhile
        (·.stop ≤ n.stop)).Sublist comments :=
      (List.takeWhile_sublist _).trans (List.dropWhile_sublist _)
    have afterSub : ((comments.dropWhile (·.stop ≤ n.start)).dropWhile
        (·.stop ≤ n.stop)).Sublist comments :=
      (List.dropWhile_sublist _).trans (List.dropWhile_sublist _)
    rw [weaveAll]
    simp only [List.span_eq_takeWhile_dropWhile, laidOutAll_append]
    refine ⟨n.start, early, ?_⟩
    rw [laidOutAll_cons, weave_start, weave_stop]
    refine ⟨Int.le_refl _, ?_, ?_⟩
    · exact weave_laidOut node inner (fun c hc => wide c (insideSub.subset hc)) innerSpared
    · exact weaveAll_laidOut later outer (fun c hc => wide c (afterSub.subset hc))
        (fun c hc => (spared c (afterSub.subset hc)).2)

end

end Node

namespace Lua

open Node

/-! ## Rows -/

/-- The comments spare the node. If it is a mark that may be split, it is not empty, and no comment
lies inside it. -/
structure Kept (comments : List Node) (n : Node) : Prop where
  spared : ∀ c ∈ comments, Spares c n
  mark : ¬ Plain n.kind →
    n.start < n.stop ∧ ∀ c ∈ comments, c.stop ≤ n.start ∨ n.stop ≤ c.start

/-- A row of nodes between two offsets, beside the comments of the text. -/
structure Row (comments : List Node) (low high : Int) (row : List Node) : Prop where
  laidOut : LaidOutAll low high row
  kept : ∀ n ∈ row, Kept comments n

variable {comments row children rest : List Node} {low high : Int} {n m : Node}

namespace Row

theorem cons_iff : Row comments low high (n :: rest) ↔
    low ≤ n.start ∧ n.LaidOut ∧ Kept comments n ∧ Row comments n.stop high rest := by
  constructor
  · rintro ⟨laidOut, kept⟩
    obtain ⟨after, node, later⟩ := laidOutAll_cons.mp laidOut
    obtain ⟨first, others⟩ := List.forall_mem_cons.mp kept
    exact ⟨after, node, first, later, others⟩
  · rintro ⟨after, node, first, later, others⟩
    exact ⟨laidOutAll_cons.mpr ⟨after, node, later⟩, List.forall_mem_cons.mpr ⟨first, others⟩⟩

/-- A construct in the place of its children keeps the row. -/
theorem construct {kind : String} (h : Row comments low high (children ++ rest))
    (plain : Plain kind) (some : children ≠ []) :
    Row comments low high (Node.construct kind children :: rest) := by
  obtain ⟨laidOut, kept⟩ := h
  refine ⟨laidOut.construct kind some, List.forall_mem_cons.mpr ⟨?_, ?_⟩⟩
  · refine ⟨?_, fun split => absurd plain split⟩
    intro c hc
    refine spares_construct kind laidOut some (sparesAll_iff.mpr ?_)
    intro n hn
    exact (kept n (List.mem_append_left rest hn)).spared c hc
  · intro n hn
    exact kept n (List.mem_append_right children hn)

/-- Another kind or role keeps the row. -/
theorem rename (h : Row comments low high (n :: rest)) (start : m.start = n.start)
    (stop : m.stop = n.stop) (same : m.children = n.children)
    (kind : m.kind = n.kind ∨ Plain m.kind) : Row comments low high (m :: rest) := by
  obtain ⟨after, node, kept, later⟩ := cons_iff.mp h
  rw [cons_iff, laidOut_iff, start, stop, same]
  refine ⟨after, laidOut_iff.mp node, ⟨?_, ?_⟩, later⟩
  · intro c hc
    rw [spares_iff, start, stop, same]
    exact spares_iff.mp (kept.spared c hc)
  · intro split
    rw [start, stop]
    rcases kind with kept_kind | plain
    · exact kept.mark (kept_kind ▸ split)
    · exact absurd plain split

/-- The halves of a mark keep the row. -/
theorem split {kind : String} (h : Row comments low high (n :: rest)) (mark : ¬ Plain n.kind)
    (plain : Plain kind) : Row comments low high (angle n :: half kind n :: rest) := by
  obtain ⟨after, node, kept, later⟩ := cons_iff.mp h
  obtain ⟨wide, apart⟩ := kept.mark mark
  have angle_kept : Kept comments (angle n) := by
    refine ⟨?_, fun split => absurd (show Plain ">" by decide) split⟩
    intro c hc
    rw [spares_iff]
    simp only [angle, Node.token]
    rcases apart c hc with left | right
    · exact .inl left
    · exact .inr (.inl (by omega))
  have half_kept : Kept comments (half kind n) := by
    refine ⟨?_, fun split => absurd plain split⟩
    intro c hc
    rw [spares_iff]
    simp only [half, Node.token]
    rcases apart c hc with left | right
    · exact .inl (by omega)
    · exact .inr (.inl right)
  refine cons_iff.mpr ⟨after, laidOut_token.mpr (by omega), angle_kept, ?_⟩
  exact cons_iff.mpr ⟨Int.le_refl _, laidOut_token.mpr (by omega), half_kept, later⟩

/-- **What a row is grouped to stands between the same offsets**, beside the same comments. -/
theorem grouped {a b : List Node} (grouping : Grouped a b) (h : Row comments low high a) :
    Row comments low high b := by
  induction grouping generalizing low with
  | refl => exact h
  | trans _ _ first second => exact second (first h)
  | cons n _ ih =>
    obtain ⟨after, node, kept, later⟩ := cons_iff.mp h
    exact cons_iff.mpr ⟨after, node, kept, ih later⟩
  | construct rest plain some => exact h.construct plain some
  | rename rest start stop same kind => exact h.rename start stop same kind
  | split rest mark plain => exact h.split mark plain

end Row

/-! ## The tree of a text -/

theorem isComment_ne (comment : isComment n = true) (token : isComment m = false) : n ≠ m := by
  rintro rfl
  rw [comment] at token
  cases token

/-- The tokens of a text make a row beside its comments. -/
theorem row_of_cuts {cuts : List Node} (h : LaidOutAll low high cuts)
    (wide : ∀ n ∈ cuts, n.start < n.stop) :
    Row (cuts.filter isComment) low high (cuts.filter (!isComment ·)) := by
  have apart : cuts.Pairwise fun a b => a.stop ≤ b.start ∨ b.stop ≤ a.start :=
    h.pairwise.imp .inl
  have beside (c t : Node) (hc : c ∈ cuts.filter isComment)
      (ht : t ∈ cuts.filter (!isComment ·)) : c.stop ≤ t.start ∨ t.stop ≤ c.start := by
    obtain ⟨inCuts, comment⟩ := List.mem_filter.mp hc
    obtain ⟨inCuts', token⟩ := List.mem_filter.mp ht
    have : Std.Symm fun a b : Node => a.stop ≤ b.start ∨ b.stop ≤ a.start :=
      ⟨fun _ _ h => h.symm⟩
    exact apart.forall inCuts inCuts' (isComment_ne comment (by simpa using token))
  refine ⟨h.sublist List.filter_sublist, ?_⟩
  intro t ht
  refine ⟨?_, ?_⟩
  · intro c hc
    rw [spares_iff]
    rcases beside c t hc ht with left | right
    · exact .inl left
    · exact .inr (.inl right)
  · intro mark
    exact ⟨wide t (List.mem_filter.mp ht).1, fun c hc => beside c t hc ht⟩

theorem root_laidOut {length : Nat} {cuts : List Node} {n : Node} (h : root length cuts = .ok n)
    (laidOut : LaidOutAll 0 length cuts) (wide : ∀ n ∈ cuts, n.start < n.stop) :
    0 ≤ n.start ∧ n.LaidOut ∧ n.stop = length := by
  unfold root at h
  rw [List.partition_eq_filter_filter] at h
  dsimp only at h
  obtain ⟨children, read, h⟩ := Outcome.bind_eq_ok.mp h
  obtain rfl := Except.ok.inj h
  obtain ⟨grouped, kept⟩ := (row_of_cuts laidOut wide).grouped (chunk_grouped read)
  have woven : LaidOutAll 0 length (weaveAll children (cuts.filter isComment)) := by
    refine weaveAll_laidOut grouped (laidOut.sublist List.filter_sublist) ?_ ?_
    · intro c hc
      exact wide c (List.mem_filter.mp hc).1
    · intro c hc
      exact sparesAll_iff.mpr fun n hn => (kept n hn).spared c hc
  generalize weaveAll children (cuts.filter isComment) = whole at woven
  rw [laidOut_iff]
  cases whole with
  | nil => exact ⟨woven.low_le_high, ⟨Int.le_refl _, laidOutAll_nil.mpr (Int.le_refl _)⟩, rfl⟩
  | cons first others =>
    obtain ⟨after, node, later⟩ := laidOutAll_cons.mp woven
    have rooted : LaidOutAll first.start length (first :: others) :=
      laidOutAll_cons.mpr ⟨Int.le_refl _, node, later⟩
    exact ⟨after, ⟨rooted.low_le_high, rooted⟩, rfl⟩

/-- **The tree of a text is laid out inside the text.** -/
theorem read_laidOut {source : List UInt8} {n : Node} (h : parser.read source = .ok n) :
    0 ≤ n.start ∧ n.LaidOut ∧ n.stop = source.length := by
  obtain ⟨cuts, cut, rooted⟩ := root_of_read h
  obtain ⟨laidOut, wide⟩ := tokens_laidOut cut
  exact root_laidOut rooted laidOut wide

/-- **Every node of the tree of a text has a proper range inside the text.** -/
theorem read_range {source : List UInt8} {n m : Node} (h : parser.read source = .ok n)
    (hm : m ∈ n.preorder) : 0 ≤ m.start ∧ m.start ≤ m.stop ∧ m.stop ≤ source.length := by
  obtain ⟨starts, laidOut, stops⟩ := read_laidOut h
  have := laidOut.of_mem_preorder m hm
  omega

/-- The ranges in the trees of this parser are proper. -/
theorem parser_proper : parser.Proper := by
  intro source tree read n hn
  obtain ⟨starts, le, -⟩ := read_range read hn
  exact ⟨starts, le⟩

end Lua

end LuaLint
