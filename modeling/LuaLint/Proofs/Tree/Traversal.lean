import LuaLint.Tree.Traversal

/-!
# What a walk reaches

The cursor of a walk only knows its next move. Taken together, its moves make exactly the calls of the
recursive definition.

* **The walk** (`walk_eq_ahead`): from any place on, a walk reaches what lies ahead of the cursor, and a
  cursor that has just been created has the nodes below its own ahead and no others, whatever siblings
  and ancestors that node has.
* **The calls** (`Node.events`) are defined by recursion: the call for a node, then those of its
  children, one child after the other.
* **Places** (`Node.located`): the nodes of a tree with the child indexes that lead to them. Every place
  of the tree comes up once (`mem_located`), in lexicographic order (`located_pairwise`), which puts a
  parent before its children and a sibling before those on its right.
-/

namespace LuaLint

/-! ## The walk -/

namespace Cursor

/-- **A walk reaches what lies ahead**, in that order. -/
theorem walk_eq_ahead (c : Cursor) : c.walk = c.ahead := by
  fun_induction walk c with
  | case1 c stuck => exact (ahead_of_no_next stuck).symm
  | case2 c d move ih => rw [ih, ahead_of_next move]

/-- A cursor that has just been created has its own subtree ahead. -/
theorem ahead_of_depth_zero {c : Cursor} (h : c.depth = 0) : c.ahead = c.node.preorder := by
  simp [ahead, toRight, h]

/-- The cursor that is created on the node to which child indexes lead from `n`, where `levels` are the
levels above `n`. -/
def createFrom? (levels : List Level) (n : Node) : List Nat → Option Cursor
  | [] => some ⟨n, levels, 0⟩
  | i :: path => match n.children[i]? with
    | some child => createFrom? (⟨n, n.children.drop (i + 1)⟩ :: levels) child path
    | none => none

/-- The cursor that is created on the node of a tree to which child indexes lead. -/
def create? (root : Node) (path : List Nat) : Option Cursor := createFrom? [] root path

theorem createFrom?_eq {start : Node} (levels : List Level) (n : Node) (path : List Nat)
    (h : n.descend? path = some start) :
    ∃ c, createFrom? levels n path = some c ∧ c.node = start ∧ c.depth = 0 := by
  induction path generalizing levels n with
  | nil =>
    obtain rfl : n = start := by simpa [Node.descend?] using h
    exact ⟨_, rfl, rfl, rfl⟩
  | cons i path ih =>
    unfold Node.descend? at h
    rcases child : n.children[i]? with _ | m
    · simp [child] at h
    · simp only [child] at h
      obtain ⟨c, created, at_start, new⟩ := ih (⟨n, n.children.drop (i + 1)⟩ :: levels) m h
      exact ⟨c, by simpa [createFrom?, child] using created, at_start, new⟩

end Cursor

namespace Node

/-- A walk of a tree visits its nodes in preorder. -/
theorem visited_eq_preorder (n : Node) : n.visited = n.preorder := by
  rw [visited, Cursor.walk_eq_ahead, Cursor.ahead_of_depth_zero rfl]
  rfl

/-! ## Below a row -/

section row

variable {n m : Node} {row : List Node}

theorem preorderAll_append (row rest : List Node) :
    preorderAll (row ++ rest) = preorderAll row ++ preorderAll rest := by
  induction row with
  | nil => simp [preorderAll]
  | cons n row ih => simp [preorderAll, ih]

theorem mem_preorderAll : m ∈ preorderAll row ↔ ∃ n ∈ row, m ∈ n.preorder := by
  induction row with
  | nil => simp [preorderAll]
  | cons n row ih => simp [preorderAll, ih]

theorem mem_preorder_self (n : Node) : n ∈ n.preorder := by
  rw [preorder_eq]
  exact List.mem_cons_self

theorem mem_preorderAll_of_mem (h : n ∈ row) : n ∈ preorderAll row :=
  mem_preorderAll.mpr ⟨n, h, mem_preorder_self n⟩

end row

/-! ## The calls -/

mutual

/-- The calls for the nodes of a tree: the one for the node itself, then those of its children. -/
def events (handled : List String) : Node → List (Call × Node)
  | n@⟨_, _, _, _, _, _, _, _, children⟩ => (n.call handled, n) :: eventsAll handled children

/-- The calls for the nodes of several trees, one tree after the other. -/
def eventsAll (handled : List String) : List Node → List (Call × Node)
  | [] => []
  | n :: rest => n.events handled ++ eventsAll handled rest

end

mutual

theorem events_eq_map (handled : List String) :
    (n : Node) → n.events handled = n.preorder.map fun m => (m.call handled, m)
  | ⟨_, _, _, _, _, _, _, _, children⟩ => by
    rw [events, preorder, List.map_cons, eventsAll_eq_map handled children]

theorem eventsAll_eq_map (handled : List String) :
    (ns : List Node) → eventsAll handled ns = (preorderAll ns).map fun m => (m.call handled, m)
  | [] => rfl
  | n :: rest => by
    rw [eventsAll, preorderAll, List.map_append, events_eq_map handled n,
      eventsAll_eq_map handled rest]

end

/-- The three ways of a call exclude each other, and the node alone decides among them. -/
theorem call_iff (handled : List String) (n : Node) :
    (n.call handled = .token ↔ n.named = false) ∧
      (n.call handled = .handler ↔ n.named = true ∧ n.kind ∈ handled) ∧
      (n.call handled = .generic ↔ n.named = true ∧ n.kind ∉ handled) := by
  unfold call
  by_cases named : n.named = true
  · by_cases known : n.kind ∈ handled
    · simp [named, known]
    · simp [named, known]
  · simp [named]

/-! ## Places -/

/-- Descending in two parts. -/
theorem descend?_append (n : Node) (path below : List Nat) :
    n.descend? (path ++ below) = (n.descend? path).bind (·.descend? below) := by
  induction path generalizing n with
  | nil => rfl
  | cons i path ih =>
    rw [List.cons_append, descend?, descend?]
    rcases n.children[i]? with _ | child
    · rfl
    · exact ih child

mutual

/-- The nodes of a tree with the child indexes that lead to them. -/
def located : Node → List (List Nat × Node)
  | n@⟨_, _, _, _, _, _, _, _, children⟩ => ([], n) :: locatedAll 0 children

/-- The same for siblings, of which the first has index `i`. -/
def locatedAll (i : Nat) : List Node → List (List Nat × Node)
  | [] => []
  | n :: rest => n.located.map (fun (path, m) => (i :: path, m)) ++ locatedAll (i + 1) rest

end

mutual

theorem map_located : (n : Node) → n.located.map Prod.snd = n.preorder
  | ⟨_, _, _, _, _, _, _, _, children⟩ => by
    rw [located, preorder, List.map_cons, map_locatedAll 0 children]

theorem map_locatedAll (i : Nat) :
    (ns : List Node) → (locatedAll i ns).map Prod.snd = preorderAll ns
  | [] => rfl
  | n :: rest => by
    rw [locatedAll, preorderAll, List.map_append, List.map_map, map_locatedAll (i + 1) rest,
      ← map_located n]
    rfl

end

mutual

/-- **Every place of a tree comes up**, with the node that is there. -/
theorem mem_located (path : List Nat) (m : Node) :
    (n : Node) → ((path, m) ∈ n.located ↔ n.descend? path = some m)
  | ⟨_, _, _, _, _, _, _, _, children⟩ => by
    rw [located, List.mem_cons, mem_locatedAll path m 0 children]
    cases path with
    | nil => simp [descend?, eq_comm]
    | cons i path =>
      simp only [reduceCtorEq, Prod.mk.injEq, false_and, false_or, Nat.zero_add, List.cons.injEq,
        and_assoc, exists_and_left, exists_eq_left', descend?]
      rcases children[i]? with _ | c
      · simp
      · simp

/-- Every place in siblings comes up, with the node that is there. -/
theorem mem_locatedAll (path : List Nat) (m : Node) (i : Nat) :
    (ns : List Node) → ((path, m) ∈ locatedAll i ns ↔
      ∃ j rest, path = (i + j) :: rest ∧ ∃ c, ns[j]? = some c ∧ c.descend? rest = some m)
  | [] => by simp [locatedAll]
  | n :: others => by
    rw [locatedAll, List.mem_append, mem_locatedAll path m (i + 1) others]
    constructor
    · rintro (first | ⟨j, rest, rfl, c, at_j, below⟩)
      · obtain ⟨⟨rest, c⟩, here, same⟩ := List.mem_map.mp first
        obtain ⟨rfl, rfl⟩ : i :: rest = path ∧ c = m := by simpa using same
        exact ⟨0, rest, rfl, n, rfl, (mem_located rest c n).mp here⟩
      · exact ⟨j + 1, rest, by rw [Nat.add_right_comm, Nat.add_assoc], c, at_j, below⟩
    · rintro ⟨j, rest, rfl, c, at_j, below⟩
      cases j with
      | zero =>
        obtain rfl : n = c := by simpa using at_j
        exact Or.inl (List.mem_map.mpr ⟨(rest, m), (mem_located rest m n).mpr below, rfl⟩)
      | succ j =>
        exact Or.inr ⟨j, rest, by rw [Nat.add_right_comm, Nat.add_assoc], c, at_j, below⟩

end

mutual

/-- **Places come up in lexicographic order**, and so each of them once. -/
theorem located_pairwise : (n : Node) → (n.located.map Prod.fst).Pairwise (· < ·)
  | ⟨_, _, _, _, _, _, _, _, children⟩ => by
    rw [located, List.map_cons, List.pairwise_cons]
    refine ⟨fun path below => ?_, locatedAll_pairwise 0 children⟩
    obtain ⟨⟨_, m⟩, found, rfl⟩ := List.mem_map.mp below
    obtain ⟨j, rest, rfl, -⟩ := (mem_locatedAll _ m 0 children).mp found
    exact List.nil_lt_cons _ _

theorem locatedAll_pairwise (i : Nat) :
    (ns : List Node) → ((locatedAll i ns).map Prod.fst).Pairwise (· < ·)
  | [] => .nil
  | n :: others => by
    rw [locatedAll, List.map_append, List.pairwise_append]
    have first : (n.located.map fun (path, m) => (i :: path, m)).map Prod.fst =
        (n.located.map Prod.fst).map (i :: ·) := by
      rw [List.map_map, List.map_map]
      rfl
    rw [first]
    refine ⟨?_, locatedAll_pairwise (i + 1) others, fun p hp q hq => ?_⟩
    · exact List.pairwise_map.mpr ((located_pairwise n).imp List.cons_lt_cons_self.mpr)
    · -- the places below the first sibling begin with its index, all others with a greater one
      obtain ⟨path, -, rfl⟩ := List.mem_map.mp hp
      obtain ⟨⟨_, m⟩, found, rfl⟩ := List.mem_map.mp hq
      obtain ⟨j, rest, rfl, -⟩ := (mem_locatedAll _ m (i + 1) others).mp found
      exact List.Lex.rel (by omega)

end

/-! ## A walk from any node -/

/-- **A walk makes the calls of the recursive definition**, from whichever node of a tree it starts and
whatever siblings and ancestors that node has: it calls for every place below the node once, a parent
before its children and an earlier sibling before a later one, and for nothing else. Tokens are called
as tokens, and of the other nodes those are handled whose kind is. -/
theorem calls_eq_events {root start : Node} {path : List Nat} (here : root.descend? path = some start)
    (handled : List String) :
    start.calls handled = start.events handled ∧
      (∃ c, Cursor.create? root path = some c ∧ c.node = start ∧
        c.walk.map (fun m => (m.call handled, m)) = start.events handled) ∧
      (∃ located : List (List Nat × Node),
        (start.events handled).map Prod.snd = located.map Prod.snd ∧
        (∀ below m, (below, m) ∈ located ↔ root.descend? (path ++ below) = some m) ∧
        (located.map Prod.fst).Pairwise (· < ·)) ∧
      ∀ how m, (how, m) ∈ start.events handled →
        (how = .token ↔ m.named = false) ∧
        (how = .handler ↔ m.named = true ∧ m.kind ∈ handled) ∧
        (how = .generic ↔ m.named = true ∧ m.kind ∉ handled) := by
  refine ⟨?_, ?_, ?_, fun how m called => ?_⟩
  · rw [calls, visited_eq_preorder, events_eq_map]
  · obtain ⟨c, created, rfl, new⟩ := Cursor.createFrom?_eq [] root path here
    refine ⟨c, created, rfl, ?_⟩
    rw [Cursor.walk_eq_ahead, Cursor.ahead_of_depth_zero new, events_eq_map]
  · refine ⟨start.located, ?_, fun below m => ?_, located_pairwise start⟩
    · rw [events_eq_map, List.map_map, map_located]
      exact List.map_id _
    · rw [mem_located, descend?_append, here]
      rfl
  · rw [events_eq_map] at called
    obtain ⟨m, -, same⟩ := List.mem_map.mp called
    obtain ⟨rfl, rfl⟩ : m.call handled = how ∧ m = _ := by simpa using same
    exact call_iff handled m

/-- A node without children, of a kind that is named or not. -/
def leaf (kind : String) (named : Bool) : Node := token kind named 0 0 []

/-- A walk that starts at the first of two siblings ends there: the comma and the name below it are
called for, as a token and as handled, and the second sibling is not. -/
theorem calls_eq_events_inner :
    let inner := construct "names" [leaf "," false, leaf "name" true]
    let root := construct "lists" [inner, leaf "name" true]
    root.descend? [0] = some inner ∧
      inner.calls ["name", ","] =
        [(.generic, inner), (.token, leaf "," false), (.handler, leaf "name" true)] := by
  intro inner root
  have here : root.descend? [0] = some inner := rfl
  obtain ⟨calls, -⟩ := calls_eq_events here ["name", ","]
  exact ⟨here, calls.trans rfl⟩

end Node

end LuaLint
