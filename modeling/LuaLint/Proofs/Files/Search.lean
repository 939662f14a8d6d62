import LuaLint.Files.Search

/-!
# The files to check

Of items with the same key the first is kept (`firstsBy`).

* **What is kept** (`mem_firstsBy`, `filter_firstsBy`): items of the list whose keys are new, and of those
  with the same key the first.
* **What is kept has different keys** (`firstsBy_pairwise`), and a list in which the keys differ is kept as
  it is (`firstsBy_of_pairwise`).
* **Keys seen before** only leave items out (`firstsBy_of_seen`). So two lists in a row keep what the
  first keeps and then what the second keeps, less the keys of the first (`firstsBy_append`).
* **The command line** (`filesToCheck_append`) is the case in which the keys are the locations that paths
  mean. What holds of some file to check holds of some candidate, and the other way round if it cannot be
  told from one spelling of a location to the other (`exists_mem_filesToCheck`).
-/

namespace LuaLint.Disk

section firsts

variable {α β : Type} [BEq β] [LawfulBEq β] {key : α → β} {seen : List β}

/-- Only items with new keys are kept. -/
theorem mem_firstsBy {a : α} {items : List α} (h : a ∈ firstsBy key seen items) :
    a ∈ items ∧ key a ∉ seen := by
  induction items generalizing seen with
  | nil => cases h
  | cons b rest ih =>
    rw [firstsBy] at h
    split at h
    · obtain ⟨inRest, new⟩ := ih h
      exact ⟨List.mem_cons_of_mem b inRest, new⟩
    · rename_i unseen
      rcases List.mem_cons.mp h with rfl | h
      · exact ⟨List.mem_cons_self, by simpa using unseen⟩
      · obtain ⟨inRest, new⟩ := ih h
        exact ⟨List.mem_cons_of_mem b inRest, fun old => new (List.mem_cons_of_mem _ old)⟩

/-- For each new key an item is kept. -/
theorem exists_mem_firstsBy {a : α} {items : List α} (ha : a ∈ items) (new : key a ∉ seen) :
    ∃ b ∈ firstsBy key seen items, key b = key a := by
  induction items generalizing seen with
  | nil => cases ha
  | cons c rest ih =>
    rw [firstsBy]
    split
    · rename_i old
      rcases List.mem_cons.mp ha with rfl | ha
      · exact absurd (by simpa using old) new
      · exact ih ha new
    · by_cases same : key c = key a
      · exact ⟨c, List.mem_cons_self, same⟩
      · have later : a ∈ rest := by
          rcases List.mem_cons.mp ha with rfl | ha
          · exact absurd rfl same
          · exact ha
        have still : key a ∉ key c :: seen := by
          intro old
          rcases List.mem_cons.mp old with eq | old
          · exact same eq.symm
          · exact new old
        obtain ⟨b, kept, eq⟩ := ih later still
        exact ⟨b, List.mem_cons_of_mem c kept, eq⟩

/-- **Of the items with a new key only the first is kept.** -/
theorem filter_firstsBy {k : β} (new : k ∉ seen) (items : List α) :
    (firstsBy key seen items).filter (key · == k) = (items.find? (key · == k)).toList := by
  induction items generalizing seen with
  | nil => rfl
  | cons a rest ih =>
    rw [firstsBy]
    by_cases same : key a = k
    · have unseen : ¬ seen.contains (key a) := by simpa [same] using new
      have others : (firstsBy key (key a :: seen) rest).filter (key · == k) = [] := by
        apply List.filter_eq_nil_iff.mpr
        intro b hb again
        exact (mem_firstsBy hb).2 (by simp [same, beq_iff_eq.mp again])
      have first : (key a == k) = true := beq_iff_eq.mpr same
      rw [if_neg unseen, List.filter_cons, if_pos first, others, List.find?_cons, first]
      rfl
    · have other : (key a == k) = false := beq_eq_false_iff_ne.mpr same
      rw [List.find?_cons, other]
      split
      · exact ih new
      · rw [List.filter_cons, other]
        exact ih (List.not_mem_cons_of_ne_of_not_mem (Ne.symm same) new)

/-- **More keys that were seen before leave more items out**, and change nothing else. -/
theorem firstsBy_of_seen {more : List β} (items : List α) (sub : ∀ k ∈ seen, k ∈ more) :
    firstsBy key more items =
      (firstsBy key seen items).filter fun a => !more.contains (key a) := by
  induction items generalizing seen more with
  | nil => rfl
  | cons a rest ih =>
    rw [firstsBy, firstsBy]
    by_cases old : seen.contains (key a)
    · have older : more.contains (key a) := by simpa using sub _ (by simpa using old)
      rw [if_pos older, if_pos old]
      exact ih sub
    · rw [if_neg old]
      by_cases older : more.contains (key a)
      · rw [if_pos older, List.filter_cons_of_neg (by simpa using older)]
        apply ih
        intro k hk
        rcases List.mem_cons.mp hk with rfl | hk
        · simpa using older
        · exact sub k hk
      · rw [if_neg older, List.filter_cons_of_pos (by simpa using older)]
        congr 1
        have both : ∀ k ∈ key a :: seen, k ∈ key a :: more := by
          intro k hk
          rcases List.mem_cons.mp hk with rfl | hk
          · exact List.mem_cons_self
          · exact List.mem_cons_of_mem _ (sub k hk)
        rw [ih both]
        apply List.filter_congr
        intro b hb
        have differ : key b ≠ key a := fun same => (mem_firstsBy hb).2 (by simp [same])
        simp [differ]

/-- **Of two lists in a row the second keeps what it would keep alone**, less the keys of the first. -/
theorem firstsBy_append (items more : List α) :
    firstsBy key seen (items ++ more) = firstsBy key seen items ++
      (firstsBy key seen more).filter fun a => !(items.map key).contains (key a) := by
  induction items generalizing seen with
  | nil =>
    rw [List.nil_append, firstsBy, List.nil_append]
    exact (List.filter_eq_self.mpr fun _ _ => rfl).symm
  | cons a rest ih =>
    rw [List.cons_append, firstsBy, firstsBy]
    by_cases old : seen.contains (key a)
    · rw [if_pos old, if_pos old, ih]
      congr 1
      apply List.filter_congr
      intro b hb
      have differ : key b ≠ key a := by
        intro same
        exact (mem_firstsBy hb).2 (by simpa [same] using old)
      simp [differ]
    · have sub : ∀ k ∈ seen, k ∈ key a :: seen := fun k hk => List.mem_cons_of_mem _ hk
      rw [if_neg old, if_neg old, ih, List.cons_append, firstsBy_of_seen more sub,
        List.filter_filter]
      congr 2
      apply List.filter_congr
      intro b hb
      have new : key b ∉ seen := (mem_firstsBy hb).2
      by_cases same : key b = key a
      · simp [same]
      · simp [same, new]

/-- No two of the items that are kept have the same key. -/
theorem firstsBy_pairwise (items : List α) :
    (firstsBy key seen items).Pairwise (key · ≠ key ·) := by
  induction items generalizing seen with
  | nil => exact List.Pairwise.nil
  | cons a rest ih =>
    rw [firstsBy]
    split
    · exact ih
    · refine List.pairwise_cons.mpr ⟨fun b hb same => ?_, ih⟩
      exact (mem_firstsBy hb).2 (same ▸ List.mem_cons_self)

/-- **Items of which no two have the same key are all kept.** -/
theorem firstsBy_of_pairwise {items : List α} (apart : items.Pairwise (key · ≠ key ·))
    (new : ∀ a ∈ items, key a ∉ seen) : firstsBy key seen items = items := by
  induction items generalizing seen with
  | nil => rfl
  | cons a rest ih =>
    obtain ⟨differ, apart⟩ := List.pairwise_cons.mp apart
    have unseen : ¬ seen.contains (key a) := by simpa using new a List.mem_cons_self
    rw [firstsBy, if_neg unseen]
    congr 1
    refine ih apart fun b hb old => ?_
    rcases List.mem_cons.mp old with same | old
    · exact differ b hb same.symm
    · exact new b (List.mem_cons_of_mem a hb) old

end firsts

/-! ## The command line -/

variable {d : Disk} {ps : List Path}

/-- The paths that the paths of a command line stand for, before spellings of one location are told
apart. -/
def candidates (d : Disk) (ps : List Path) : List Path := ps.flatMap d.expand

/-- **More paths on a command line add the files that they stand for**, less those that are checked
already. -/
theorem filesToCheck_append (ps qs : List Path) :
    d.filesToCheck (ps ++ qs) = d.filesToCheck ps ++ (d.filesToCheck qs).filter fun q =>
      !((d.candidates ps).map d.canonical).contains (d.canonical q) := by
  unfold filesToCheck candidates
  rw [List.flatMap_append, firstsBy_append]

/-- **Some file to check has a property if some candidate has it**, and the other way round, as long as
two candidates of one meaning both have it or both lack it. -/
theorem exists_mem_filesToCheck {P : Path → Prop}
    (agree : ∀ p ∈ d.candidates ps, ∀ q ∈ d.candidates ps, d.canonical p = d.canonical q → P p → P q) :
    (∃ p ∈ d.filesToCheck ps, P p) ↔ ∃ p ∈ d.candidates ps, P p := by
  constructor
  · rintro ⟨p, hp, holds⟩
    exact ⟨p, (mem_firstsBy hp).1, holds⟩
  · rintro ⟨p, hp, holds⟩
    obtain ⟨q, kept, same⟩ : ∃ q ∈ d.filesToCheck ps, d.canonical q = d.canonical p :=
      exists_mem_firstsBy hp List.not_mem_nil
    exact ⟨q, kept, agree p hp q (mem_firstsBy kept).1 same.symm holds⟩

end LuaLint.Disk
