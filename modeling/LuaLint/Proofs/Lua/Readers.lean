import LuaLint.Proofs.Lua.Grouping
import LuaLint.Proofs.Outcome

/-!
# Reading groups tokens

**Every reader of the grammar groups** (`expression_grouped`, `statement_grouped` and the others): what it
returns, with the tokens that it leaves after it, is grouped from the tokens that it was given. So the
children of the root are grouped from all tokens of a text (`chunk_grouped`).

There is one theorem for each reader. It takes the reader apart as it is written, and what the readers
group that are called on the way is put together in the order of the calls.
-/

namespace LuaLint.Lua

open Outcome

/-! ## Taking readers apart -/

section chains

variable {α β : Type} {limit : Nat} {ts : List Node} {b : β}

/-- A chain that gives something begins with a step. -/
theorem of_step {x : Except Obstacle (Step Node α limit)}
    {f : Step Node α limit → Except Obstacle β} (h : x >>= f = .ok b) :
    ∃ v rest shorter, x = .ok ⟨v, rest, shorter⟩ ∧ f ⟨v, rest, shorter⟩ = .ok b := by
  obtain ⟨⟨v, rest, shorter⟩, first, h⟩ := bind_eq_ok.mp h
  exact ⟨v, rest, shorter, first, h⟩

theorem take_eq {t : Node} {rest : List Node} {shorter : rest.length < ts.length}
    (h : take ts = .ok ⟨t, rest, shorter⟩) : ts = t :: rest := by
  cases ts with
  | nil => cases h
  | cons t rest =>
    cases h
    rfl

theorem expect_eq {kind : String} {t : Node} {rest : List Node} {shorter : rest.length < ts.length}
    (h : expect kind ts = .ok ⟨t, rest, shorter⟩) : ts = t :: rest := by
  unfold expect at h
  split at h
  · exact take_eq h
  · cases h

/-- The same chain when it begins with any token. -/
theorem of_take {f : Step Node Node ts.length → Except Obstacle β} (h : take ts >>= f = .ok b) :
    ∃ t rest shorter, ts = t :: rest ∧ f ⟨t, rest, shorter⟩ = .ok b := by
  obtain ⟨t, rest, shorter, taken, h⟩ := of_step h
  exact ⟨t, rest, shorter, take_eq taken, h⟩

/-- The same chain when it begins with a token of a kind. -/
theorem of_expect {kind : String} {f : Step Node Node ts.length → Except Obstacle β}
    (h : expect kind ts >>= f = .ok b) :
    ∃ t rest shorter, ts = t :: rest ∧ f ⟨t, rest, shorter⟩ = .ok b := by
  obtain ⟨t, rest, shorter, taken, h⟩ := of_step h
  exact ⟨t, rest, shorter, expect_eq taken, h⟩

/-- The same chain when it begins with a name. -/
theorem of_name {f : Step Node Node ts.length → Except Obstacle β} (h : name ts >>= f = .ok b) :
    ∃ t rest shorter, ts = t :: rest ∧ f ⟨t, rest, shorter⟩ = .ok b :=
  of_expect h

end chains

/-! ## Names and parameters -/

variable {ts : List Node}

theorem moreNames_grouped {ts : List Node} {s : Step Node (List Node) (ts.length + 1)}
    (h : moreNames ts = .ok s) : Grouped ts (s.value ++ s.rest) := by
  rw [moreNames] at h
  split at h
  · obtain ⟨comma, r, hr, rfl, h⟩ := of_take h
    obtain ⟨n, q, hq, rfl, h⟩ := of_expect h
    obtain ⟨more, p, hp, others, h⟩ := of_step h
    obtain rfl := Except.ok.inj h
    exact .cons comma (.cons n (moreNames_grouped others))
  · obtain rfl := Except.ok.inj h
    exact .refl ts
termination_by ts.length
decreasing_by omega

theorem vararg_grouped {s : Step Node (List Node) ts.length} (h : vararg ts = .ok s) :
    Grouped ts (s.value ++ s.rest) := by
  rw [vararg] at h
  obtain ⟨dots, r, hr, rfl, h⟩ := of_expect h
  dsimp only at h
  split at h
  · obtain ⟨n, q, hq, rfl, h⟩ := of_take h
    obtain rfl := Except.ok.inj h
    exact .asLeaf _ dots _
  · obtain rfl := Except.ok.inj h
    exact .asLeaf _ dots _

theorem moreParameters_grouped {ts : List Node} {s : Step Node (List Node) (ts.length + 1)}
    (h : moreParameters ts = .ok s) : Grouped ts (s.value ++ s.rest) := by
  rw [moreParameters] at h
  split at h
  · obtain ⟨comma, r, hr, rfl, h⟩ := of_take h
    dsimp only at h
    split at h
    · obtain ⟨last, q, hq, dots, h⟩ := of_step h
      obtain rfl := Except.ok.inj h
      exact .cons comma (vararg_grouped dots)
    · obtain ⟨n, q, hq, rfl, h⟩ := of_expect h
      obtain ⟨more, p, hp, others, h⟩ := of_step h
      obtain rfl := Except.ok.inj h
      exact .cons comma (.cons n (moreParameters_grouped others))
  · obtain rfl := Except.ok.inj h
    exact .refl ts
termination_by ts.length
decreasing_by omega

theorem parameters_grouped {s : Step Node Node ts.length} (h : parameters ts = .ok s) :
    Grouped ts (s.value :: s.rest) := by
  rw [parameters] at h
  obtain ⟨opening, r, hr, rfl, h⟩ := of_expect h
  obtain ⟨inner, q, hq, read, h⟩ := of_step h
  obtain ⟨closing, p, hp, rfl, h⟩ := of_expect h
  obtain rfl := Except.ok.inj h
  have inside : Grouped r (inner ++ closing :: p) := by
    dsimp only at read
    split at read
    · cases read
      exact .refl _
    · obtain ⟨last, q, hq, dots, read⟩ := of_step read
      cases read
      exact vararg_grouped dots
    · obtain ⟨n, q, hq, rfl, read⟩ := of_expect read
      obtain ⟨more, q, hq, others, read⟩ := of_step read
      cases read
      exact .cons n (moreParameters_grouped others)
  exact .close "parameters" _ (by simpa using .cons opening inside)

theorem functionNameTail_grouped {whole : Node} {ts : List Node} {s : Step Node Node (ts.length + 1)}
    (h : functionNameTail whole ts = .ok s) : Grouped (whole :: ts) (s.value :: s.rest) := by
  rw [functionNameTail] at h
  split at h
  · obtain ⟨dot, r, hr, rfl, h⟩ := of_take h
    obtain ⟨n, q, hq, rfl, h⟩ := of_expect h
    obtain ⟨longer, p, hp, read, h⟩ := of_step h
    obtain rfl := Except.ok.inj h
    have field := (Grouped.refl ([whole, dot, n] ++ q)).close "dot_index_expression" _
    exact field.trans (functionNameTail_grouped read)
  · obtain ⟨colon, r, hr, rfl, h⟩ := of_take h
    obtain ⟨n, q, hq, rfl, h⟩ := of_expect h
    obtain rfl := Except.ok.inj h
    exact (Grouped.refl ([whole, colon, n] ++ q)).close "method_index_expression" _
  · obtain rfl := Except.ok.inj h
    exact .refl _
termination_by ts.length
decreasing_by omega

/-! ## Attributes -/

theorem closeAngle_grouped {s : Step Node Node (ts.length + 1)} (h : closeAngle ts = .ok s) :
    Grouped ts (s.value :: s.rest) := by
  unfold closeAngle at h
  split at h
  · rename_i t rest
    dsimp only at h
    split at h
    · obtain rfl := Except.ok.inj h
      exact .refl _
    · rename_i kind
      obtain rfl := Except.ok.inj h
      exact .split rest (by simp [Plain, kind]) (by simp [Plain])
    · rename_i kind
      obtain rfl := Except.ok.inj h
      exact .split rest (by simp [Plain, kind]) (by simp [Plain])
    · cases h
  · cases h

theorem attributes_grouped {s : Step Node (List Node) (ts.length + 1)} (h : attributes ts = .ok s) :
    Grouped ts (s.value ++ s.rest) := by
  rw [attributes] at h
  split at h
  · obtain ⟨opening, r, hr, rfl, h⟩ := of_take h
    obtain ⟨n, q, hq, rfl, h⟩ := of_expect h
    obtain ⟨closing, p, hp, close, h⟩ := of_step h
    obtain rfl := Except.ok.inj h
    exact .close "attribute" [opening, n, closing]
      (.cons opening (.cons n (closeAngle_grouped close)))
  · obtain rfl := Except.ok.inj h
    exact .refl _

theorem declaredNames_grouped {ts : List Node} {s : Step Node (List Node) ts.length}
    (h : declaredNames ts = .ok s) : Grouped ts (s.value ++ s.rest) := by
  rw [declaredNames] at h
  obtain ⟨n, r, hr, rfl, h⟩ := of_expect h
  obtain ⟨attrs, q, hq, given, h⟩ := of_step h
  have first := (attributes_grouped given).cons n
  dsimp only at h first
  split at h
  · obtain ⟨comma, p, hp, rfl, h⟩ := of_take h
    obtain ⟨more, o, ho, others, h⟩ := of_step h
    obtain rfl := Except.ok.inj h
    have later := (declaredNames_grouped others).cons comma
    simpa using first.trans (later.under (n :: attrs))
  · obtain rfl := Except.ok.inj h
    exact first
termination_by ts.length
decreasing_by omega

theorem declaredNames_ne_nil {s : Step Node (List Node) ts.length} (h : declaredNames ts = .ok s) :
    s.value ≠ [] := by
  rw [declaredNames] at h
  obtain ⟨n, r, hr, rfl, h⟩ := of_name h
  obtain ⟨attrs, q, hq, given, h⟩ := of_step h
  dsimp only at h
  split at h
  · obtain ⟨comma, p, hp, rfl, h⟩ := of_take h
    obtain ⟨more, o, ho, others, h⟩ := of_step h
    obtain rfl := Except.ok.inj h
    exact List.cons_ne_nil _ _
  · obtain rfl := Except.ok.inj h
    exact List.cons_ne_nil _ _

/-! ## Expressions and statements

Readers that refer to one another group by the recursion by which they end: each theorem takes one reader
apart as it is written, and the measures are those of the readers. -/

mutual

theorem expression_grouped {ts : List Node} {power : Nat} {s : Step Node Node ts.length}
    (h : expression power ts = .ok s) : Grouped ts (s.value :: s.rest) := by
  rw [expression] at h
  obtain ⟨left, r, hr, first, h⟩ := of_step h
  obtain ⟨whole, q, hq, others, h⟩ := of_step h
  obtain rfl := Except.ok.inj h
  exact (operand_grouped first).trans (operations_grouped others)
termination_by 16 * ts.length + 4
decreasing_by all_goals omega

theorem operations_grouped {ts : List Node} {power : Nat} {left : Node}
    {s : Step Node Node (ts.length + 1)} (h : operations power left ts = .ok s) :
    Grouped (left :: ts) (s.value :: s.rest) := by
  rw [operations] at h
  split at h
  · obtain rfl := Except.ok.inj h
    exact .refl _
  · split at h
    · obtain ⟨operator, r, hr, rfl, h⟩ := of_take h
      obtain ⟨right, q, hq, operand, h⟩ := of_step h
      obtain ⟨whole, p, hp, others, h⟩ := of_step h
      obtain rfl := Except.ok.inj h
      have row : Grouped (left :: operator :: r) ([left.inField "left", operator.inField "operator",
          right.inField "right"] ++ q) :=
        (((expression_grouped operand).inField _).cons operator |>.trans
          (.inField _ (.refl _))).cons left |>.trans (.inField _ (.refl _))
      exact (row.close "binary_expression" _).trans (operations_grouped others)
    · obtain rfl := Except.ok.inj h
      exact .refl _
termination_by 16 * ts.length
decreasing_by all_goals omega

theorem operand_grouped {ts : List Node} {s : Step Node Node ts.length} (h : operand ts = .ok s) :
    Grouped ts (s.value :: s.rest) := by
  rw [operand] at h
  dsimp only at h
  split at h
  · obtain ⟨operator, r, hr, rfl, h⟩ := of_take h
    dsimp only at h
    obtain ⟨argument, q, hq, read, h⟩ := of_step h
    obtain rfl := Except.ok.inj h
    exact .close "unary_expression" [operator, argument]
      ((expression_grouped read).cons operator)
  · split at h
    case h_4 =>
      obtain ⟨dots, r, hr, rfl, h⟩ := of_take h
      obtain rfl := Except.ok.inj h
      exact .asLeaf _ dots _
    case h_5 | h_6 =>
      obtain ⟨t, r, hr⟩ := s
      obtain rfl := take_eq h
      exact .refl _
    case h_7 =>
      obtain ⟨word, r, hr, rfl, h⟩ := of_take h
      dsimp only at h
      obtain ⟨parts, q, hq, read, h⟩ := of_step h
      obtain rfl := Except.ok.inj h
      exact .close "function_definition" (word :: parts)
        ((functionBody_grouped read).cons word)
    case h_8 => exact table_grouped h
    case h_9 => exact prefixExpression_grouped h
    all_goals
      rename_i kind
      obtain ⟨word, r, hr, rfl, h⟩ := of_take h
      obtain rfl := Except.ok.inj h
      refine .asLeaf _ word _ ?_
      simp only [front, List.head?_cons, Option.map_some, Option.getD_some] at kind
      rw [kind]
      simp [Plain]
termination_by 16 * ts.length + 3
decreasing_by all_goals omega

theorem prefixExpression_grouped {ts : List Node} {s : Step Node Node ts.length}
    (h : prefixExpression ts = .ok s) : Grouped ts (s.value :: s.rest) := by
  rw [prefixExpression] at h
  obtain ⟨head, r, hr, first, h⟩ := of_step h
  obtain ⟨whole, q, hq, others, h⟩ := of_step h
  obtain rfl := Except.ok.inj h
  refine Grouped.trans ?_ (suffixes_grouped others)
  split at first
  · obtain ⟨n, p, hp, rfl, first⟩ := of_take first
    cases first
    exact .asVariable n _
  · obtain ⟨opening, p, hp, rfl, first⟩ := of_expect first
    dsimp only at first
    obtain ⟨inner, o, ho, read, first⟩ := of_step first
    obtain ⟨closing, l, hl, rfl, first⟩ := of_expect first
    cases first
    exact .close "parenthesized_expression" [opening, inner, closing]
      ((expression_grouped read).cons opening)
termination_by 16 * ts.length + 2
decreasing_by all_goals omega

theorem suffixes_grouped {ts : List Node} {head : Node} {s : Step Node Node (ts.length + 1)}
    (h : suffixes head ts = .ok s) : Grouped (head :: ts) (s.value :: s.rest) := by
  rw [suffixes] at h
  split at h
  · obtain ⟨dot, r, hr, rfl, h⟩ := of_take h
    dsimp only at h
    obtain ⟨n, q, hq, rfl, h⟩ := of_name h
    dsimp only at h
    obtain ⟨whole, p, hp, others, h⟩ := of_step h
    obtain rfl := Except.ok.inj h
    have field := (Grouped.refl ([head, dot, n] ++ q)).close "dot_index_expression" _
    exact field.trans (suffixes_grouped others)
  · obtain ⟨opening, r, hr, rfl, h⟩ := of_take h
    dsimp only at h
    obtain ⟨index, q, hq, read, h⟩ := of_step h
    dsimp only at h
    obtain ⟨closing, p, hp, rfl, h⟩ := of_expect h
    dsimp only at h
    obtain ⟨whole, o, ho, others, h⟩ := of_step h
    obtain rfl := Except.ok.inj h
    have element := Grouped.close "bracket_index_expression" [head, opening, index, closing]
      (((expression_grouped read).cons opening).cons head)
    exact element.trans (suffixes_grouped others)
  · obtain ⟨colon, r, hr, rfl, h⟩ := of_take h
    dsimp only at h
    obtain ⟨n, q, hq, rfl, h⟩ := of_name h
    dsimp only at h
    obtain ⟨given, p, hp, read, h⟩ := of_step h
    dsimp only at h
    obtain ⟨whole, o, ho, others, h⟩ := of_step h
    obtain rfl := Except.ok.inj h
    have method := (Grouped.refl ([head, colon, n] ++ q)).close "method_index_expression" _
    have call := (method.trans ((arguments_grouped read).cons _)).close
      "function_call" [_, given]
    exact call.trans (suffixes_grouped others)
  case h_7 =>
    obtain rfl := Except.ok.inj h
    exact .refl _
  all_goals
    obtain ⟨given, r, hr, read, h⟩ := of_step h
    obtain ⟨whole, q, hq, others, h⟩ := of_step h
    obtain rfl := Except.ok.inj h
    have call := ((arguments_grouped read).cons head).close
      "function_call" [head, given]
    exact call.trans (suffixes_grouped others)
termination_by 16 * ts.length + 2
decreasing_by all_goals omega

theorem arguments_grouped {ts : List Node} {s : Step Node Node ts.length}
    (h : arguments ts = .ok s) : Grouped ts (s.value :: s.rest) := by
  rw [arguments] at h
  split at h
  · obtain ⟨text, r, hr, rfl, h⟩ := of_take h
    obtain rfl := Except.ok.inj h
    exact (Grouped.refl ([text] ++ r)).close "arguments" _
  · obtain ⟨fields, r, hr, read, h⟩ := of_step h
    obtain rfl := Except.ok.inj h
    exact .close "arguments" [fields] (table_grouped read)
  · obtain ⟨opening, r, hr, rfl, h⟩ := of_expect h
    dsimp only at h
    obtain ⟨given, q, hq, read, h⟩ := of_step h
    obtain ⟨closing, p, hp, rfl, h⟩ := of_expect h
    obtain rfl := Except.ok.inj h
    have inside : Grouped r (given ++ closing :: p) := by
      split at read
      · cases read
        exact .refl _
      · obtain ⟨values, q, hq, values_read, read⟩ := of_step read
        cases read
        exact (expressions_grouped values_read).1
    exact .close "arguments" _ (by simpa using .cons opening inside)
termination_by 16 * ts.length + 1
decreasing_by all_goals omega

theorem expressions_grouped {ts : List Node} {s : Step Node (List Node) ts.length}
    (h : expressions ts = .ok s) : Grouped ts (s.value ++ s.rest) ∧ s.value ≠ [] := by
  rw [expressions] at h
  obtain ⟨first, r, hr, read, h⟩ := of_step h
  have one := expression_grouped read
  dsimp only at h one
  split at h
  · obtain ⟨comma, q, hq, rfl, h⟩ := of_take h
    dsimp only at h
    obtain ⟨more, p, hp, others, h⟩ := of_step h
    obtain rfl := Except.ok.inj h
    have later := ((expressions_grouped others).1.cons comma).cons first
    exact ⟨one.trans later, by simp⟩
  · obtain rfl := Except.ok.inj h
    exact ⟨one, by simp⟩
termination_by 16 * ts.length + 5
decreasing_by all_goals omega

theorem table_grouped {ts : List Node} {s : Step Node Node ts.length} (h : table ts = .ok s) :
    Grouped ts (s.value :: s.rest) := by
  rw [table] at h
  obtain ⟨opening, r, hr, rfl, h⟩ := of_expect h
  dsimp only at h
  have fewer : r.length < (opening :: r).length := hr
  obtain ⟨inner, q, hq, read, h⟩ := of_step h
  obtain ⟨closing, p, hp, rfl, h⟩ := of_expect h
  obtain rfl := Except.ok.inj h
  exact .close "table_constructor" _ (by simpa using (fields_grouped read).cons opening)
termination_by 16 * ts.length
decreasing_by all_goals omega

theorem fields_grouped {ts : List Node} {s : Step Node (List Node) (ts.length + 1)}
    (h : fields ts = .ok s) : Grouped ts (s.value ++ s.rest) := by
  rw [fields] at h
  split at h
  · obtain rfl := Except.ok.inj h
    exact .refl _
  · obtain ⟨one, r, hr, read, h⟩ := of_step h
    have first := tableField_grouped read
    dsimp only at h first
    split at h
    · obtain ⟨separator, q, hq, rfl, h⟩ := of_take h
      dsimp only at h
      obtain ⟨more, p, hp, others, h⟩ := of_step h
      obtain rfl := Except.ok.inj h
      exact first.trans (((fields_grouped others).cons separator).cons one)
    · obtain rfl := Except.ok.inj h
      exact first
termination_by 16 * ts.length + 7
decreasing_by all_goals omega

theorem tableField_grouped {ts : List Node} {s : Step Node Node ts.length}
    (h : tableField ts = .ok s) : Grouped ts (s.value :: s.rest) := by
  rw [tableField] at h
  split at h
  · obtain ⟨opening, r, hr, rfl, h⟩ := of_take h
    dsimp only at h
    obtain ⟨index, q, hq, read, h⟩ := of_step h
    dsimp only at h
    obtain ⟨closing, p, hp, rfl, h⟩ := of_expect h
    dsimp only at h
    obtain ⟨equals, o, ho, rfl, h⟩ := of_expect h
    dsimp only at h
    obtain ⟨value, l, hl, given, h⟩ := of_step h
    obtain rfl := Except.ok.inj h
    have key := (expression_grouped read).cons opening
    have row := (expression_grouped given).under [opening, index, closing, equals]
    exact .close "field" [opening, index, closing, equals, value] (key.trans row)
  · split at h
    · obtain ⟨n, r, hr, rfl, h⟩ := of_take h
      dsimp only at h
      obtain ⟨equals, q, hq, rfl, h⟩ := of_expect h
      dsimp only at h
      obtain ⟨value, p, hp, given, h⟩ := of_step h
      obtain rfl := Except.ok.inj h
      have row := (expression_grouped given).under [n, equals]
      exact .close "field" [n, equals, value] row
    · obtain ⟨value, r, hr, given, h⟩ := of_step h
      obtain rfl := Except.ok.inj h
      exact .close "field" [value] (expression_grouped given)
termination_by 16 * ts.length + 6
decreasing_by all_goals omega

theorem functionBody_grouped {ts : List Node} {s : Step Node (List Node) ts.length}
    (h : functionBody ts = .ok s) : Grouped ts (s.value ++ s.rest) := by
  rw [functionBody] at h
  obtain ⟨given, r, hr, heads, h⟩ := of_step h
  obtain ⟨statements, q, hq, read, h⟩ := of_step h
  obtain ⟨last, p, hp, rfl, h⟩ := of_expect h
  obtain rfl := Except.ok.inj h
  have inner := (block_grouped read).body
  simpa using (parameters_grouped heads).trans (inner.cons given)
termination_by 16 * ts.length
decreasing_by all_goals omega

theorem block_grouped {ts : List Node} {s : Step Node (List Node) (ts.length + 1)}
    (h : block ts = .ok s) : Grouped ts (s.value ++ s.rest) := by
  rw [block] at h
  split at h
  case h_6 =>
    obtain ⟨last, r, hr, read, h⟩ := of_step h
    obtain rfl := Except.ok.inj h
    exact returnStatement_grouped read
  case h_7 =>
    obtain ⟨one, r, hr, first, h⟩ := of_step h
    obtain ⟨more, q, hq, others, h⟩ := of_step h
    obtain rfl := Except.ok.inj h
    exact (statement_grouped first).trans ((block_grouped others).cons one)
  all_goals
    obtain rfl := Except.ok.inj h
    exact .refl _
termination_by 16 * ts.length + 9
decreasing_by all_goals omega

theorem returnStatement_grouped {ts : List Node} {s : Step Node Node ts.length}
    (h : returnStatement ts = .ok s) : Grouped ts (s.value :: s.rest) := by
  rw [returnStatement] at h
  obtain ⟨word, r, hr, rfl, h⟩ := of_expect h
  dsimp only at h
  obtain ⟨values, q, hq, read, h⟩ := of_step h
  have given : Grouped r (values ++ q) := by
    split at read
    case h_7 =>
      obtain ⟨listed, p, hp, items, read⟩ := of_step read
      cases read
      obtain ⟨row, some⟩ := expressions_grouped items
      exact row.close "expression_list" _ some
    all_goals
      cases read
      exact .refl _
  dsimp only at h
  split at h
  · obtain ⟨semicolon, p, hp, rfl, h⟩ := of_take h
    obtain rfl := Except.ok.inj h
    exact .close "return_statement" _ (by simpa using given.cons word)
  · obtain rfl := Except.ok.inj h
    exact .close "return_statement" _ (by simpa using given.cons word)
termination_by 16 * ts.length
decreasing_by all_goals omega

theorem statement_grouped {ts : List Node} {s : Step Node Node ts.length}
    (h : statement ts = .ok s) : Grouped ts (s.value :: s.rest) := by
  rw [statement] at h
  split at h
  case h_1 =>
    obtain ⟨mark, r, hr, rfl, h⟩ := of_take h
    obtain rfl := Except.ok.inj h
    exact (Grouped.refl ([mark] ++ r)).close "empty_statement" _
  case h_2 =>
    obtain ⟨word, r, hr, rfl, h⟩ := of_take h
    obtain rfl := Except.ok.inj h
    exact .asLeaf _ word _
  case h_3 =>
    obtain ⟨word, r, hr, rfl, h⟩ := of_take h
    obtain ⟨n, q, hq, rfl, h⟩ := of_name h
    obtain rfl := Except.ok.inj h
    exact (Grouped.refl ([word, n] ++ q)).close "goto_statement" _
  case h_4 =>
    obtain ⟨opening, r, hr, rfl, h⟩ := of_take h
    obtain ⟨n, q, hq, rfl, h⟩ := of_name h
    obtain ⟨closing, p, hp, rfl, h⟩ := of_expect h
    obtain rfl := Except.ok.inj h
    exact (Grouped.refl ([opening, n, closing] ++ p)).close "label_statement" _
  case h_5 =>
    obtain ⟨word, r, hr, rfl, h⟩ := of_take h
    dsimp only at h
    obtain ⟨statements, q, hq, read, h⟩ := of_step h
    obtain ⟨last, p, hp, rfl, h⟩ := of_expect h
    obtain rfl := Except.ok.inj h
    have inner := (block_grouped read).body
    exact .close "do_statement" _ (by simpa using inner.cons word)
  case h_6 =>
    obtain ⟨word, r, hr, rfl, h⟩ := of_take h
    dsimp only at h
    obtain ⟨condition, q, hq, test, h⟩ := of_step h
    dsimp only at h
    obtain ⟨doWord, p, hp, rfl, h⟩ := of_expect h
    dsimp only at h
    obtain ⟨statements, o, ho, read, h⟩ := of_step h
    obtain ⟨last, l, hl, rfl, h⟩ := of_expect h
    obtain rfl := Except.ok.inj h
    have head := expression_grouped test
    have inner := (block_grouped read).body
    exact .close "while_statement" _
      (by simpa using (head.trans ((inner.cons doWord).cons condition)).cons word)
  case h_7 =>
    obtain ⟨word, r, hr, rfl, h⟩ := of_take h
    dsimp only at h
    obtain ⟨statements, q, hq, read, h⟩ := of_step h
    dsimp only at h
    obtain ⟨untilWord, p, hp, rfl, h⟩ := of_expect h
    dsimp only at h
    obtain ⟨condition, o, ho, test, h⟩ := of_step h
    obtain rfl := Except.ok.inj h
    have tail := (expression_grouped test).cons untilWord
    have inner := ((block_grouped read).trans (tail.under statements)).body
    exact .close "repeat_statement" _ (by simpa using inner.cons word)
  case h_8 =>
    obtain ⟨word, r, hr, rfl, h⟩ := of_take h
    dsimp only at h
    obtain ⟨condition, q, hq, test, h⟩ := of_step h
    dsimp only at h
    obtain ⟨thenWord, p, hp, rfl, h⟩ := of_expect h
    dsimp only at h
    obtain ⟨statements, o, ho, read, h⟩ := of_step h
    dsimp only at h
    obtain ⟨others, l, hl, branches, h⟩ := of_step h
    obtain ⟨last, k, hk, rfl, h⟩ := of_expect h
    obtain rfl := Except.ok.inj h
    have head := expression_grouped test
    have inner := ((block_grouped read).trans
      ((alternatives_grouped branches).under statements)).body
    exact .close "if_statement" _
      (by simpa using (head.trans ((inner.cons thenWord).cons condition)).cons word)
  case h_9 =>
    obtain ⟨word, r, hr, rfl, h⟩ := of_take h
    dsimp only at h
    obtain ⟨clause, q, hq, range, h⟩ := of_step h
    dsimp only at h
    obtain ⟨doWord, p, hp, rfl, h⟩ := of_expect h
    dsimp only at h
    obtain ⟨statements, o, ho, read, h⟩ := of_step h
    obtain ⟨last, l, hl, rfl, h⟩ := of_expect h
    obtain rfl := Except.ok.inj h
    have head := forClause_grouped range
    have inner := (block_grouped read).body
    exact .close "for_statement" _
      (by simpa using (head.trans ((inner.cons doWord).cons clause)).cons word)
  case h_10 =>
    obtain ⟨word, r, hr, rfl, h⟩ := of_take h
    dsimp only at h
    obtain ⟨n, q, hq, rfl, h⟩ := of_name h
    dsimp only at h
    obtain ⟨whole, p, hp, called, h⟩ := of_step h
    dsimp only at h
    obtain ⟨parts, o, ho, read, h⟩ := of_step h
    obtain rfl := Except.ok.inj h
    have head := functionNameTail_grouped called
    exact .close "function_declaration" (word :: whole :: parts)
      ((head.trans ((functionBody_grouped read).cons whole)).cons word)
  case h_11 =>
    obtain ⟨word, r, hr, rfl, h⟩ := of_take h
    dsimp only at h
    obtain ⟨whole, q, hq, read, h⟩ := of_step h
    obtain rfl := Except.ok.inj h
    exact declaration_grouped read
  case h_12 =>
    split at h
    · obtain ⟨t, r, hr, rfl, h⟩ := of_take h
      dsimp only at h
      obtain ⟨attrs, q, hq, given, h⟩ := of_step h
      dsimp only at h
      split at h
      · obtain ⟨star, p, hp, rfl, h⟩ := of_take h
        obtain rfl := Except.ok.inj h
        have row := (Grouped.asVariable t r).trans ((attributes_grouped given).cons _)
        exact .close "implicit_variable_declaration" _ (by simpa using row)
      · obtain ⟨whole, p, hp, read, h⟩ := of_step h
        obtain rfl := Except.ok.inj h
        exact (Grouped.asVariable t r).trans (declaration_grouped read)
    · exact assignmentOrCall_grouped h
termination_by 16 * ts.length + 8
decreasing_by all_goals omega

theorem declaration_grouped {ts : List Node} {word : Node} {s : Step Node Node ts.length}
    (h : declaration word ts = .ok s) : Grouped (word :: ts) (s.value :: s.rest) := by
  rw [declaration] at h
  split at h
  · obtain ⟨functionWord, r, hr, rfl, h⟩ := of_take h
    dsimp only at h
    obtain ⟨n, q, hq, rfl, h⟩ := of_name h
    dsimp only at h
    obtain ⟨parts, p, hp, read, h⟩ := of_step h
    obtain rfl := Except.ok.inj h
    exact .close "function_declaration" (word :: functionWord :: n :: parts)
      ((functionBody_grouped read).under [word, functionWord, n])
  · obtain ⟨attrs, r, hr, given, h⟩ := of_step h
    dsimp only at h
    obtain ⟨names, q, hq, declared, h⟩ := of_step h
    have some : names ≠ [] := declaredNames_ne_nil declared
    have row := (attributes_grouped given).trans ((declaredNames_grouped declared).under attrs)
    have targets : Grouped ts (Node.construct "variable_list" (attrs ++ names) :: q) :=
      .close "variable_list" _ (by simpa using row) (by simp [some])
    dsimp only at h
    split at h
    · obtain ⟨equals, p, hp, rfl, h⟩ := of_take h
      dsimp only at h
      obtain ⟨values, o, ho, items, h⟩ := of_step h
      obtain rfl := Except.ok.inj h
      obtain ⟨listed, some⟩ := expressions_grouped items
      have value := listed.close "expression_list" _ some
      have assignment := (targets.trans ((value.cons equals).cons _)).close
        "assignment_statement" [_, equals, _]
      exact .close "variable_declaration" [word, _] (assignment.cons word)
    · obtain rfl := Except.ok.inj h
      exact .close "variable_declaration" [word, _] (targets.cons word)
termination_by 16 * ts.length + 1
decreasing_by all_goals omega

theorem alternatives_grouped {ts : List Node} {s : Step Node (List Node) (ts.length + 1)}
    (h : alternatives ts = .ok s) : Grouped ts (s.value ++ s.rest) := by
  rw [alternatives] at h
  split at h
  · obtain ⟨word, r, hr, rfl, h⟩ := of_take h
    dsimp only at h
    obtain ⟨condition, q, hq, test, h⟩ := of_step h
    dsimp only at h
    obtain ⟨thenWord, p, hp, rfl, h⟩ := of_expect h
    dsimp only at h
    obtain ⟨statements, o, ho, read, h⟩ := of_step h
    dsimp only at h
    obtain ⟨others, l, hl, more, h⟩ := of_step h
    obtain rfl := Except.ok.inj h
    have head := expression_grouped test
    have inner := (block_grouped read).body
    have branch : Grouped (word :: r) (Node.construct "elseif_statement"
        (word :: condition :: thenWord :: body statements) :: o) :=
      .close "elseif_statement" _ ((head.trans ((inner.cons thenWord).cons condition)).cons word)
    exact branch.trans ((alternatives_grouped more).cons _)
  · obtain ⟨word, r, hr, rfl, h⟩ := of_take h
    dsimp only at h
    obtain ⟨statements, q, hq, read, h⟩ := of_step h
    obtain rfl := Except.ok.inj h
    have inner := (block_grouped read).body
    exact .close "else_statement" (word :: body statements) (inner.cons word)
  · obtain rfl := Except.ok.inj h
    exact .refl _
termination_by 16 * ts.length
decreasing_by all_goals omega

theorem forClause_grouped {ts : List Node} {s : Step Node Node ts.length}
    (h : forClause ts = .ok s) : Grouped ts (s.value :: s.rest) := by
  rw [forClause] at h
  obtain ⟨first, r, hr, rfl, h⟩ := of_name h
  dsimp only at h
  split at h
  · obtain ⟨equals, q, hq, rfl, h⟩ := of_take h
    dsimp only at h
    obtain ⟨low, p, hp, lower, h⟩ := of_step h
    dsimp only at h
    obtain ⟨comma, o, ho, rfl, h⟩ := of_expect h
    dsimp only at h
    obtain ⟨high, l, hl, upper, h⟩ := of_step h
    have row := (expression_grouped lower).trans
      ((expression_grouped upper).under [low, comma])
    dsimp only at h row
    split at h
    · obtain ⟨secondComma, k, hk, rfl, h⟩ := of_take h
      dsimp only at h
      obtain ⟨stride, j, hj, step, h⟩ := of_step h
      obtain rfl := Except.ok.inj h
      have longer := row.trans ((expression_grouped step).under [low, comma, high, secondComma])
      exact .close "for_numeric_clause" [first, equals, low, comma, high, secondComma, stride]
        (longer.under [first, equals])
    · obtain rfl := Except.ok.inj h
      exact .close "for_numeric_clause" [first, equals, low, comma, high]
        (row.under [first, equals])
  · obtain ⟨more, q, hq, others, h⟩ := of_step h
    dsimp only at h
    obtain ⟨inWord, p, hp, rfl, h⟩ := of_expect h
    dsimp only at h
    obtain ⟨values, o, ho, items, h⟩ := of_step h
    obtain rfl := Except.ok.inj h
    have names : Grouped (first :: r) (Node.construct "variable_list" (first :: more) ::
        inWord :: p) :=
      .close "variable_list" _ ((moreNames_grouped others).cons first)
    obtain ⟨listed, some⟩ := expressions_grouped items
    have value := listed.close "expression_list" _ some
    exact .close "for_generic_clause" [_, inWord, _]
      (names.trans ((value.cons inWord).cons _))
termination_by 16 * ts.length
decreasing_by all_goals omega

theorem assignmentOrCall_grouped {ts : List Node} {s : Step Node Node ts.length}
    (h : assignmentOrCall ts = .ok s) : Grouped ts (s.value :: s.rest) := by
  rw [assignmentOrCall] at h
  obtain ⟨first, r, hr, head, h⟩ := of_step h
  have row := prefixExpression_grouped head
  dsimp only at h row
  split at h
  · obtain rfl := Except.ok.inj h
    exact row
  · split at h
    · cases h
    · obtain ⟨more, q, hq, others, h⟩ := of_step h
      dsimp only at h
      obtain ⟨equals, p, hp, rfl, h⟩ := of_expect h
      dsimp only at h
      obtain ⟨values, o, ho, items, h⟩ := of_step h
      obtain rfl := Except.ok.inj h
      have targets : Grouped ts (Node.construct "variable_list" (first :: more) :: equals :: p) :=
        .close "variable_list" _ (row.trans ((moreTargets_grouped others).cons first))
      obtain ⟨listed, some⟩ := expressions_grouped items
      have value := listed.close "expression_list" _ some
      exact .close "assignment_statement" [_, equals, _]
        (targets.trans ((value.cons equals).cons _))
termination_by 16 * ts.length + 7
decreasing_by all_goals omega

theorem moreTargets_grouped {ts : List Node} {s : Step Node (List Node) (ts.length + 1)}
    (h : moreTargets ts = .ok s) : Grouped ts (s.value ++ s.rest) := by
  rw [moreTargets] at h
  split at h
  · obtain ⟨comma, r, hr, rfl, h⟩ := of_take h
    dsimp only at h
    obtain ⟨target, q, hq, read, h⟩ := of_step h
    have first := (prefixExpression_grouped read).cons comma
    dsimp only at h first
    split at h
    · cases h
    · obtain ⟨more, p, hp, others, h⟩ := of_step h
      obtain rfl := Except.ok.inj h
      exact first.trans ((moreTargets_grouped others).under [comma, target])
  · obtain rfl := Except.ok.inj h
    exact .refl _
termination_by 16 * ts.length
decreasing_by all_goals omega

end

/-- **All tokens of a text are grouped** to the children of its root. -/
theorem chunk_grouped {children : List Node} (h : chunk ts = .ok children) :
    Grouped ts children := by
  unfold chunk at h
  split at h
  rename_i opening tokens cut
  have whole : ts = opening ++ tokens := by
    split at cut
    · split at cut <;> cases cut <;> rfl
    · cases cut
      rfl
  obtain ⟨statements, r, hr, read, h⟩ := of_step h
  dsimp only at h
  split at h
  · rename_i empty
    obtain rfl := Except.ok.inj h
    obtain rfl := List.isEmpty_iff.mp empty
    rw [whole]
    exact .under opening (by simpa using block_grouped read)
  · cases h

end LuaLint.Lua
