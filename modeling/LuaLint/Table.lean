/-!
# Tables

A table gives some names a value each. It keeps the order in which the names first came up: putting
a value under a known name replaces the old value in its place. The laws `get?_put_self` and
`get?_put_of_ne` say all that a look-up can see of it, `get?_ofEntries` what it sees of many entries put
in one after the other, and `names_put` says what happens to the order.
-/

namespace LuaLint

/-- Names with their values, each name once. -/
abbrev Table (α : Type) := List (String × α)

namespace Table

variable {α : Type}

/-- The value under a name. -/
def get? (t : Table α) (name : String) : Option α := t.lookup name

/-- The table with a value under a name, replacing what was there. -/
def put (name : String) (value : α) : Table α → Table α
  | [] => [(name, value)]
  | (other, old) :: rest =>
    if other = name then (name, value) :: rest else (other, old) :: put name value rest

/-- The table that comes about when all entries are put into the empty one. Of several entries with
one name the last decides the value and the first the place. -/
def ofEntries (entries : List (String × α)) : Table α :=
  entries.foldl (fun t (name, value) => put name value t) []

/-- The names in order. -/
def names (t : Table α) : List String := t.map (·.1)

theorem get?_put_self (t : Table α) (name : String) (value : α) :
    get? (put name value t) name = some value := by
  induction t with
  | nil => simp [put, get?]
  | cons entry rest ih =>
    obtain ⟨other, old⟩ := entry
    by_cases h : other = name
    · simp [put, get?, h]
    · have h' : (name == other) = false := by simpa using fun e : name = other => h e.symm
      simpa [put, get?, h, List.lookup_cons, h'] using ih

theorem get?_put_of_ne (t : Table α) {name other : String} (value : α) (h : other ≠ name) :
    get? (put name value t) other = get? t other := by
  have hb : (other == name) = false := by simpa using h
  induction t with
  | nil => simp [put, get?, List.lookup_cons, hb]
  | cons entry rest ih =>
    obtain ⟨key, old⟩ := entry
    by_cases hk : key = name
    · subst hk
      simp [put, get?, List.lookup_cons, hb]
    · simp only [get?] at ih
      simp [put, get?, hk, List.lookup_cons, ih]

/-- Entries that are put into a table hide what it has under their names, and of several entries with
one name the last counts. -/
theorem get?_foldl_put (entries : List (String × α)) (t : Table α) (name : String) :
    get? (entries.foldl (fun t (name, value) => put name value t) t) name =
      (get? entries.reverse name).or (get? t name) := by
  induction entries generalizing t with
  | nil => simp [get?]
  | cons entry rest ih =>
    obtain ⟨key, value⟩ := entry
    have one : get? (put key value t) name = (get? [(key, value)] name).or (get? t name) := by
      by_cases h : name = key
      · subst h
        rw [get?_put_self]
        simp [get?]
      · have hb : (name == key) = false := by simpa using h
        rw [get?_put_of_ne t value h]
        simp [get?, List.lookup_cons, hb]
    rw [List.foldl_cons, ih, one, ← Option.or_assoc, List.reverse_cons]
    simp only [get?, List.lookup_append]

/-- **Of several entries with one name the last decides the value.** -/
theorem get?_ofEntries (entries : List (String × α)) (name : String) :
    get? (ofEntries entries) name = get? entries.reverse name := by
  rw [ofEntries, get?_foldl_put]
  simp [get?]

theorem names_put (t : Table α) (name : String) (value : α) :
    names (put name value t) = if name ∈ names t then names t else names t ++ [name] := by
  induction t with
  | nil => simp [put, names]
  | cons entry rest ih =>
    obtain ⟨other, old⟩ := entry
    by_cases h : other = name
    · simp [put, names, h]
    · have h' : name ≠ other := fun e => h e.symm
      simp only [names] at ih
      simp only [put, names, h, if_false, List.map_cons, List.mem_cons, h', false_or, ih]
      split <;> simp [*]

end Table

end LuaLint
