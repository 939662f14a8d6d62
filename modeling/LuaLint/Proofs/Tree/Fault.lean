import LuaLint.Proofs.Tree.Traversal
import LuaLint.Tree.Fault

/-!
# The first fault of a tree

The fault of a damaged tree is looked for from the root down, always in the first damaged child, and no
sibling is looked at again. That this ends at the first fault of all rests on the marks being those that
are computed from below (`Node.Aggregated`).

* **Marks and faults** (`find?_located`): in the order of a walk, the search for a fault finds the place
  that the descent ends at, and finds one exactly if the root is marked. Both facts are one equation, by
  recursion on the tree: a node that is a fault comes before all below it, and of several siblings those
  without a mark have no fault in them.
* So **a tree is damaged exactly if there is a fault in it** (`damaged_eq_false_iff`), and the fault that is
  reported is the first (`firstFault_is_first`), also where faults stand inside or beside one another.
-/

namespace LuaLint.Node

variable {n : Node} {row : List Node}

/-! ## Marks that are computed from below -/

theorem aggregated_iff :
    n.Aggregated ↔ n.damaged = (n.isFault || n.children.any (·.damaged)) ∧ AllAggregated n.children := by
  cases n
  rw [Aggregated, damage, isFault]

/-- Several siblings without damage have no first fault, and any others have one. -/
theorem isSome_firstFaultAmong (i : Nat) (row : List Node) :
    (firstFaultAmong i row).isSome = row.any (·.damaged) := by
  induction row generalizing i with
  | nil => rw [firstFaultAmong]; rfl
  | cons n rest ih =>
    rw [firstFaultAmong, List.any_cons]
    cases n.damaged with
    | true => rfl
    | false => exact ih (i + 1)

theorem firstFault_eq (n : Node) :
    n.firstFault = if n.isFault then ([], n) else (firstFaultAmong 0 n.children).getD ([], n) := by
  cases n
  rw [firstFault, isFault]

theorem located_eq (n : Node) : n.located = ([], n) :: locatedAll 0 n.children := by
  cases n
  rw [located]

/-! ## The descent -/

mutual

/-- **The first fault in the order of a walk is where the descent ends**, and there is one exactly if the
root is marked. -/
theorem find?_located : (n : Node) → n.Aggregated →
    n.located.find? (·.2.isFault) = if n.damaged then some n.firstFault else none
  | ⟨kind, named, missing, damaged, start, stop, text, field, children⟩, marks => by
    obtain ⟨mark, below⟩ := aggregated_iff.mp marks
    have deeper := find?_locatedAll 0 children below
    rw [located_eq, firstFault_eq, mark, List.find?_cons, deeper]
    generalize isFault _ = fault
    cases fault with
    | true => rfl
    | false =>
      rw [Bool.false_or, ← isSome_firstFaultAmong 0 children]
      cases firstFaultAmong 0 children <;> rfl

/-- The same for siblings, of which the first has index `i`. -/
theorem find?_locatedAll (i : Nat) : (row : List Node) → AllAggregated row →
    (locatedAll i row).find? (·.2.isFault) = firstFaultAmong i row
  | [], _ => by rw [locatedAll, firstFaultAmong]; rfl
  | n :: rest, marks => by
    obtain ⟨first, others⟩ := marks
    have here := find?_located n first
    have later := find?_locatedAll (i + 1) rest others
    rw [locatedAll, List.find?_append, List.find?_map, firstFaultAmong, later]
    have same : ((·.2.isFault) ∘ fun ((path, m) : List Nat × Node) => (i :: path, m)) =
        fun place => place.2.isFault := rfl
    rw [same, here]
    cases n.damaged <;> rfl

end

theorem find?_preorder (marks : n.Aggregated) :
    n.preorder.find? isFault = if n.damaged then some n.firstFault.2 else none := by
  rw [← map_located, List.find?_map]
  change (n.located.find? fun place => place.2.isFault).map Prod.snd = _
  rw [find?_located n marks]
  cases n.damaged <;> rfl

/-- **A tree is sound exactly if there is no fault in it.** -/
theorem damaged_eq_false_iff (marks : n.Aggregated) :
    n.damaged = false ↔ ∀ m ∈ n.preorder, m.isFault = false := by
  have search := find?_preorder marks
  cases mark : n.damaged with
  | true =>
    rw [mark, if_pos rfl] at search
    refine iff_of_false nofun fun sound => ?_
    have first := sound _ (List.mem_of_find?_eq_some search)
    cases first.symm.trans (List.find?_some search)
  | false =>
    rw [mark, if_neg nofun, List.find?_eq_none] at search
    exact iff_of_true rfl fun m hm => Bool.eq_false_iff.mpr (search m hm)

/-- A search in places finds the first in lexicographic order. -/
theorem first_of_find?_located {p : List Nat × Node → Bool} {path : List Nat} {first : Node}
    (found : n.located.find? p = some (path, first)) {other : List Nat} {m : Node}
    (there : n.descend? other = some m) (passes : p (other, m) = true) : other = path ∨ path < other := by
  obtain ⟨-, before, after, split, none⟩ := List.find?_eq_some_iff_append.mp found
  have places := located_pairwise n
  have listed : (other, m) ∈ n.located := (mem_located other m n).mpr there
  rw [split] at listed places
  rcases List.mem_append.mp listed with early | late
  · have fails := none _ early
    rw [passes] at fails
    cases fails
  · rcases List.mem_cons.mp late with here | late
    · exact .inl (congrArg Prod.fst here)
    · rw [List.map_append, List.map_cons] at places
      obtain ⟨-, places, -⟩ := List.pairwise_append.mp places
      exact .inr ((List.pairwise_cons.mp places).1 other (List.mem_map_of_mem late))

/-- **The fault that is reported is the first of the tree.** If the marks are computed from below, a tree
without a mark at its root has no fault in it, and is the only one that is accepted. In any other the descent
ends at a fault that no other comes before, neither in the order of a walk nor by its place, and it is
refused with the offset where this fault starts. -/
theorem firstFault_is_first (marks : n.Aggregated) :
    (n.damaged = false ↔ ∀ m ∈ n.preorder, m.isFault = false) ∧
    (n.damaged = true → ∃ path first, n.firstFault = (path, first) ∧
      n.descend? path = some first ∧ first.isFault = true ∧
      n.preorder.find? isFault = some first ∧
      ∀ other m, n.descend? other = some m → m.isFault = true → other = path ∨ path < other) ∧
    (∀ tree, n.accept = .ok tree ↔ tree = n ∧ ∀ m ∈ n.preorder, m.isFault = false) ∧
    ∀ fault, n.accept = .error fault ↔
      ∃ first, n.preorder.find? isFault = some first ∧ fault.offset = first.start := by
  have sound := damaged_eq_false_iff marks
  have search := find?_preorder marks
  refine ⟨sound, fun damaged => ?_, fun tree => ?_, fun fault => ?_⟩
  · have found := find?_located n marks
    rw [damaged, if_pos rfl] at found search
    refine ⟨n.firstFault.1, n.firstFault.2, rfl, ?_, List.find?_some search, search, ?_⟩
    · exact (mem_located _ _ n).mp (List.mem_of_find?_eq_some found)
    · exact fun other m there fault => first_of_find?_located found there fault
  · rw [← sound, accept]
    cases n.damaged with
    | true => exact iff_of_false nofun fun accepted => nomatch accepted.2
    | false =>
      constructor
      · intro accepted
        exact ⟨(Except.ok.inj accepted).symm, rfl⟩
      · rintro ⟨rfl, -⟩
        rfl
  · rw [search, accept]
    cases n.damaged with
    | true =>
      constructor
      · intro refused
        exact ⟨n.firstFault.2, rfl, congrArg SyntaxFault.offset (Except.error.inj refused).symm⟩
      · rintro ⟨first, here, offset⟩
        obtain rfl := Option.some.inj here
        exact congrArg Except.error (congrArg SyntaxFault.mk offset.symm)
    | false => exact iff_of_false nofun fun ⟨first, nothing, _⟩ => nomatch nothing

/-! ### Faults beside and inside one another -/

/-- A leaf that stands for text which is missing. -/
def missingLeaf (kind : String) (offset : Int) : Node :=
  { token kind true offset offset [] with missing := true, damaged := true }

/-- An `ERROR` node with the given children. -/
def faulty (children : List Node) : Node := construct faultKind children

/-- Behind a sound sibling, the first child of a damaged construct is missing, its second is an `ERROR` node,
and an `ERROR` node with a fault inside comes after the construct: the missing one is reported. -/
theorem firstFault_is_first_missing :
    let inner := construct "call" [missingLeaf "name" 2, faulty [leaf "(" false]]
    let root := construct "chunk" [leaf "name" true, inner, faulty [missingLeaf ")" 7]]
    root.Aggregated ∧ root.damaged = true ∧ root.firstFault = ([1, 0], missingLeaf "name" 2) ∧
      root.preorder.find? isFault = some (missingLeaf "name" 2) ∧ root.accept = .error ⟨2⟩ := by
  intro inner root
  have marks : root.Aggregated := by
    simp [root, inner, Aggregated, AllAggregated, construct, faulty, missingLeaf, leaf, token, damage,
      faultKind]
  obtain ⟨-, refused, -, report⟩ := firstFault_is_first marks
  obtain ⟨path, first, ends, -, -, search, -⟩ := refused rfl
  have here : root.firstFault = ([1, 0], missingLeaf "name" 2) := rfl
  obtain ⟨-, rfl⟩ := Prod.mk.inj (here.symm.trans ends)
  exact ⟨marks, rfl, here, search, (report ⟨2⟩).mpr ⟨_, search, rfl⟩⟩

end LuaLint.Node
