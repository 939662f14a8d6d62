import LuaLint.Diagnostic.Workbench
import LuaLint.Proofs.Outcome

/-!
# What is on a workbench

Every item is made from a **sketch** of its fields, which may not go together (`Sketch`): a span may be
asked for that ends before it starts, or a diagnostic without labels. Whether the fields are given at once
or one of them is changed in a copy, the sketch is made into an item in the same way.

* **What an action asks for** is a relation (`Workbench.Asks`) between the bench, the action and the sketch.
  An action makes an item exactly if it asks for the item's fields (`Workbench.made?_eq_ok_iff`). A sketch
  with a flaw is refused for it (`Workbench.made?_of_flaw`).
* **One action** (`Workbench.act_cases`) puts one item behind the others, or leaves one number empty, or
  leaves the bench as it is.
* **A run** (`Workbench.run_keeps`) changes no item. Each was asked for once, by the action that its number
  belongs to, and is sound.
-/

namespace LuaLint

/-! ## Sketches -/

/-- The fields of an item as they are asked for, whether or not they go together. -/
inductive Sketch
  | span (start stop : Int)
  | label (span : Span) (message : Option String)
  | diagnostic (ruleId message : String) (severity : Severity) (labels : List Label)

/-- The fields of an item. -/
def Item.sketch : Item → Sketch
  | .span s => .span s.start s.stop
  | .label l => .label l.span l.message
  | .diagnostic d => .diagnostic d.ruleId d.message d.severity d.labels

namespace Sketch

variable {sketch : Sketch} {flaw : Malformed} {i : Item}

/-- The fields go together: a span starts at or after 0 and does not end before it starts, and a
diagnostic has a label. -/
def Sound : Sketch → Prop
  | span start stop => 0 ≤ start ∧ start ≤ stop
  | label _ _ => True
  | diagnostic _ _ _ labels => labels ≠ []

/-- Why the fields do not go together. -/
inductive Flaw : Sketch → Malformed → Prop
  | span {start stop : Int} (unfit : ¬ (0 ≤ start ∧ start ≤ stop)) :
    Flaw (.span start stop) (.span start stop)
  | unlabelled (ruleId message : String) (severity : Severity) :
    Flaw (.diagnostic ruleId message severity []) (.unlabelled ruleId)

theorem sound_or_flaw (sketch : Sketch) : sketch.Sound ∨ ∃ flaw, sketch.Flaw flaw := by
  rcases sketch with ⟨start, stop⟩ | _ | ⟨ruleId, message, severity, _ | ⟨first, more⟩⟩
  · by_cases fit : 0 ≤ start ∧ start ≤ stop
    · exact .inl fit
    · exact .inr ⟨_, .span fit⟩
  · exact .inl trivial
  · exact .inr ⟨_, .unlabelled ruleId message severity⟩
  · exact .inl (List.cons_ne_nil first more)

/-- The item with these fields. -/
def make : Sketch → Except Malformed Item
  | span start stop => (Span.ofOffsets start stop).map .span
  | label s message => .ok (.label ⟨s, message⟩)
  | diagnostic ruleId message severity labels =>
    (Diagnostic.ofLabels ruleId message severity labels).map .diagnostic

/-- What was made can be made again from its fields. -/
theorem make_sketch (i : Item) : i.sketch.make = .ok i := by
  rcases i with ⟨start, stop, le⟩ | l | d
  · have fit : 0 ≤ (start : Int) ∧ (start : Int) ≤ stop := ⟨Int.natCast_nonneg _, Int.ofNat_le.mpr le⟩
    simp [Item.sketch, make, Span.ofOffsets, fit.2, Except.map]
  · rfl
  · rfl

theorem make_of_sound (sound : sketch.Sound) : ∃ i, i.sketch = sketch ∧ sketch.make = .ok i := by
  rcases sketch with ⟨start, stop⟩ | ⟨s, message⟩ | ⟨ruleId, message, severity, _ | ⟨first, more⟩⟩
  · obtain ⟨low, le⟩ := sound
    obtain ⟨m, rfl⟩ := Int.eq_ofNat_of_zero_le low
    obtain ⟨n, rfl⟩ := Int.eq_ofNat_of_zero_le (Int.le_trans low le)
    have made := make_sketch (.span ⟨m, n, Int.ofNat_le.mp le⟩)
    exact ⟨_, rfl, made⟩
  · exact ⟨.label ⟨s, message⟩, rfl, rfl⟩
  · exact absurd rfl sound
  · exact ⟨.diagnostic ⟨ruleId, message, severity, first, more⟩, rfl, rfl⟩

theorem make_of_flaw (h : sketch.Flaw flaw) : sketch.make = .error flaw := by
  cases h with
  | span unfit => rw [make, Span.ofOffsets, dif_neg unfit]; rfl
  | unlabelled => rfl

/-- **A sketch is made into the item with its fields**, or into none. -/
theorem make_eq_ok_iff : sketch.make = .ok i ↔ i.sketch = sketch := by
  constructor
  · intro made
    rcases sketch.sound_or_flaw with sound | ⟨flaw, h⟩
    · obtain ⟨j, fields, same⟩ := make_of_sound sound
      cases made.symm.trans same
      exact fields
    · cases (make_of_flaw h).symm.trans made
  · rintro rfl
    exact make_sketch i

end Sketch

/-- **Every item is sound.** -/
theorem Item.sound (i : Item) : i.sketch.Sound := by
  refine i.sketch.sound_or_flaw.resolve_right ?_
  rintro ⟨flaw, h⟩
  cases (Sketch.make_of_flaw h).symm.trans (Sketch.make_sketch i)

namespace Workbench

/-! ## What actions ask for -/

/-- The item is on the bench under the number. -/
def Holds (b : Workbench) (n : Nat) (i : Item) : Prop := b[n]? = some (some i)

/-- The labels are on the bench under the numbers. -/
def HoldsLabels (b : Workbench) (numbers : List Nat) (labels : List Label) : Prop :=
  List.Forall₂ (fun n l => b.Holds n (.label l)) numbers labels

/-- The fields of an item with one of them changed. -/
inductive Edits (b : Workbench) : Item → Change → Sketch → Prop
  | start (s : Span) (offset : Int) : Edits b (.span s) (.start offset) (.span offset s.stop)
  | stop (s : Span) (offset : Int) : Edits b (.span s) (.stop offset) (.span s.start offset)
  | span (l : Label) {n : Nat} {s : Span} (held : b.Holds n (.span s)) :
    Edits b (.label l) (.span n) (.label s l.message)
  | remark (l : Label) (text : Option String) :
    Edits b (.label l) (.message text) (.label l.span text)
  | message (d : Diagnostic) (text : String) :
    Edits b (.diagnostic d) (.message (some text)) (.diagnostic d.ruleId text d.severity d.labels)
  | ruleId (d : Diagnostic) (text : String) :
    Edits b (.diagnostic d) (.ruleId text) (.diagnostic text d.message d.severity d.labels)
  | severity (d : Diagnostic) (severity : Severity) :
    Edits b (.diagnostic d) (.severity severity.word)
      (.diagnostic d.ruleId d.message severity d.labels)
  | labels (d : Diagnostic) {numbers : List Nat} {labels : List Label}
      (held : b.HoldsLabels numbers labels) :
    Edits b (.diagnostic d) (.labels numbers) (.diagnostic d.ruleId d.message d.severity labels)

/-- What an action asks for: an item with the given fields, or a copy of one with a field changed. -/
inductive Asks (b : Workbench) : Action → Sketch → Prop
  | span (start stop : Int) : Asks b (.makeSpan start stop) (.span start stop)
  | label (message : Option String) {n : Nat} {s : Span} (held : b.Holds n (.span s)) :
    Asks b (.makeLabel n message) (.label s message)
  | diagnostic (ruleId message : String) (severity : Severity) {numbers : List Nat}
      {labels : List Label} (held : b.HoldsLabels numbers labels) :
    Asks b (.makeDiagnostic ruleId message severity.word numbers)
      (.diagnostic ruleId message severity labels)
  | change {n : Nat} {i : Item} {edit : Change} {sketch : Sketch} (held : b.Holds n i)
      (edits : Edits b i edit sketch) : Asks b (.change n edit) sketch

variable {b : Workbench} {n : Nat} {numbers : List Nat} {i : Item} {s : Span} {l : Label}
  {labels : List Label} {a : Action} {edit : Change} {sketch : Sketch} {flaw : Malformed}

theorem item_eq_ok_iff : b.item n = .ok i ↔ b.Holds n i := by
  unfold item Holds
  split <;> simp_all

theorem span_eq_ok_iff : b.span n = .ok s ↔ b.Holds n (.span s) := by
  rw [span, Outcome.bind_eq_ok]
  constructor
  · rintro ⟨_ | _ | _, held, same⟩ <;> cases same
    exact item_eq_ok_iff.mp held
  · intro held
    exact ⟨.span s, item_eq_ok_iff.mpr held, rfl⟩

theorem label_eq_ok_iff : b.label n = .ok l ↔ b.Holds n (.label l) := by
  rw [label, Outcome.bind_eq_ok]
  constructor
  · rintro ⟨_ | _ | _, held, same⟩ <;> cases same
    exact item_eq_ok_iff.mp held
  · intro held
    exact ⟨.label l, item_eq_ok_iff.mpr held, rfl⟩

theorem labels_eq_ok_iff : numbers.mapM b.label = .ok labels ↔ b.HoldsLabels numbers labels := by
  simp only [Outcome.mapM_eq_ok_iff, label_eq_ok_iff, HoldsLabels]

/-! ## What actions make -/

theorem whole_eq_ok_iff {α : Type} {x : Except Malformed α} {value : α} :
    whole x = .ok value ↔ x = .ok value := by
  cases x <;> simp [whole]

theorem whole_map {α β : Type} (x : Except Malformed α) (f : α → β) :
    whole (x.map f) = whole x >>= fun value => pure (f value) := by
  cases x <;> rfl

theorem whole_ofWord (severity : Severity) :
    whole (Severity.ofWord severity.word) = .ok severity := by
  rw [Severity.ofWord, Severity.ofWord?_word]
  rfl

theorem changed_of_edits (edits : b.Edits i edit sketch) :
    b.changed n i edit = whole sketch.make := by
  cases edits with
  | start s offset => exact (whole_map _ _).symm
  | stop s offset => exact (whole_map _ _).symm
  | span l held => rw [changed, span_eq_ok_iff.mpr held]; rfl
  | remark l text => rfl
  | message d text => rfl
  | ruleId d text => rfl
  | severity d severity => rw [changed, whole_ofWord]; rfl
  | labels d held =>
    rw [changed, labels_eq_ok_iff.mpr held]
    exact (whole_map _ _).symm

/-- What was read as a word for a severity is one. -/
theorem eq_word_of_ofWord {text : String} {severity : Severity}
    (h : whole (Severity.ofWord text) = .ok severity) : text = severity.word := by
  rw [whole_eq_ok_iff, Severity.ofWord] at h
  split at h
  · rename_i read
    cases h
    unfold Severity.ofWord? at read
    split at read <;> cases read <;> rfl
  · cases h

/-- A span that was made has the offsets that were asked for. -/
theorem sketch_of_span {start stop : Int}
    (h : (whole (Span.ofOffsets start stop) >>= fun s => pure (Item.span s)) = .ok i) :
    i.sketch = .span start stop := by
  have made : (Sketch.span start stop).make = .ok i :=
    whole_eq_ok_iff.mp ((whole_map _ _).trans h)
  exact Sketch.make_eq_ok_iff.mp made

/-- A diagnostic that was made has the fields that were asked for. -/
theorem sketch_of_diagnostic {ruleId message : String} {severity : Severity}
    (h : (whole (Diagnostic.ofLabels ruleId message severity labels) >>=
      fun d => pure (Item.diagnostic d)) = .ok i) :
    i.sketch = .diagnostic ruleId message severity labels := by
  have made : (Sketch.diagnostic ruleId message severity labels).make = .ok i :=
    whole_eq_ok_iff.mp ((whole_map _ _).trans h)
  exact Sketch.make_eq_ok_iff.mp made

theorem edits_of_changed {j : Item} (h : b.changed n i edit = .ok j) : b.Edits i edit j.sketch := by
  unfold changed at h
  split at h
  next s offset => exact sketch_of_span h ▸ .start s offset
  next s offset => exact sketch_of_span h ▸ .stop s offset
  next l number =>
    obtain ⟨s, held, made⟩ := Outcome.bind_eq_ok.mp h
    cases made
    exact .span l (span_eq_ok_iff.mp held)
  next l text =>
    cases h
    exact .remark l text
  next d text =>
    cases h
    exact .message d text
  next d text =>
    cases h
    exact .ruleId d text
  next d word =>
    obtain ⟨severity, read, made⟩ := Outcome.bind_eq_ok.mp h
    cases made
    obtain rfl := eq_word_of_ofWord read
    exact .severity d severity
  next d numbers =>
    obtain ⟨labels, held, made⟩ := Outcome.bind_eq_ok.mp h
    exact sketch_of_diagnostic made ▸ .labels d (labels_eq_ok_iff.mp held)
  next => cases h

theorem made?_of_asks (asks : b.Asks a sketch) : b.made? a = some (whole sketch.make) := by
  cases asks with
  | span start stop => exact congrArg some (whole_map _ _).symm
  | label message held => rw [made?, span_eq_ok_iff.mpr held]; rfl
  | diagnostic ruleId message severity held =>
    rw [made?, whole_ofWord, labels_eq_ok_iff.mpr held]
    exact congrArg some (whole_map _ _).symm
  | change held edits =>
    rw [made?, item_eq_ok_iff.mpr held]
    exact congrArg some (changed_of_edits edits)

theorem asks_of_made? (h : b.made? a = some (.ok i)) : b.Asks a i.sketch := by
  unfold made? at h
  split at h
  next start stop =>
    exact sketch_of_span (Option.some.inj h) ▸ .span start stop
  next n message =>
    obtain ⟨s, held, made⟩ := Outcome.bind_eq_ok.mp (Option.some.inj h)
    cases made
    exact .label message (span_eq_ok_iff.mp held)
  next ruleId message word numbers =>
    obtain ⟨severity, read, more⟩ := Outcome.bind_eq_ok.mp (Option.some.inj h)
    obtain ⟨labels, held, made⟩ := Outcome.bind_eq_ok.mp more
    obtain rfl := eq_word_of_ofWord read
    exact sketch_of_diagnostic made ▸
      .diagnostic ruleId message severity (labels_eq_ok_iff.mp held)
  next n edit =>
    obtain ⟨original, held, made⟩ := Outcome.bind_eq_ok.mp (Option.some.inj h)
    exact .change (item_eq_ok_iff.mp held) (edits_of_changed made)
  next => cases h

/-- **An action makes an item exactly if it asks for the item's fields.** -/
theorem made?_eq_ok_iff : b.made? a = some (.ok i) ↔ b.Asks a i.sketch := by
  refine ⟨asks_of_made?, fun asks => ?_⟩
  rw [made?_of_asks asks, Sketch.make_sketch]
  rfl

/-- **Fields that do not go together are refused.** -/
theorem made?_of_flaw (asks : b.Asks a sketch) (h : sketch.Flaw flaw) :
    b.made? a = some (.error (.malformed flaw)) := by
  rw [made?_of_asks asks, Sketch.make_of_flaw h]
  rfl

/-! ## One action -/

/-- **What an action does to the bench**: it makes the item that it asks for, or is refused, and then its
number stays empty, or makes nothing. -/
theorem act_cases (b : Workbench) (a : Action) :
    (∃ i, b.Asks a i.sketch ∧ b.act a = (b ++ [some i], .ok (.item i))) ∨
      (∃ refusal, b.made? a = some (.error refusal) ∧ b.act a = (b ++ [none], .error refusal)) ∨
      b.made? a = none ∧ b.act a = (b, b.told a) := by
  unfold act
  rcases made : b.made? a with _ | refusal | i
  · exact .inr (.inr ⟨rfl, rfl⟩)
  · exact .inr (.inl ⟨refusal, rfl, rfl⟩)
  · exact .inl ⟨i, made?_eq_ok_iff.mp made, rfl⟩

theorem holds_concat_iff {x : Option Item} :
    Holds (b ++ [x]) n i ↔ b.Holds n i ∨ n = b.length ∧ x = some i := by
  unfold Holds
  rcases Nat.lt_trichotomy n b.length with before | rfl | behind
  · simp [List.getElem?_append_left before, Nat.ne_of_lt before]
  · simp
  · simp [List.getElem?_append_right (Nat.le_of_lt behind), Nat.ne_of_gt behind,
      Nat.le_of_lt behind, Nat.sub_ne_zero_of_lt behind]

/-- **After an action** the bench has the items that it had, and behind them the one that the action asks
for, if there is one. -/
theorem holds_act_iff :
    Holds (b.act a).1 n i ↔ b.Holds n i ∨ n = b.length ∧ b.Asks a i.sketch := by
  rcases b.act_cases a with ⟨j, asks, acts⟩ | ⟨refusal, made, acts⟩ | ⟨made, acts⟩
  · rw [acts, holds_concat_iff]
    refine or_congr_right (and_congr_right fun _ => ⟨?_, fun asks' => ?_⟩)
    · rintro ⟨⟩
      exact asks
    · have same := (made?_eq_ok_iff.mpr asks).symm.trans (made?_eq_ok_iff.mpr asks')
      exact congrArg some (Except.ok.inj (Option.some.inj same))
  · rw [acts, holds_concat_iff, ← made?_eq_ok_iff, made]
    simp
  · rw [acts, ← made?_eq_ok_iff, made]
    simp

theorem prefix_act (b : Workbench) (a : Action) : b <+: (b.act a).1 := by
  rcases b.act_cases a with ⟨i, -, acts⟩ | ⟨refusal, -, acts⟩ | ⟨-, acts⟩
  · exact acts ▸ List.prefix_append b [some i]
  · exact acts ▸ List.prefix_append b [none]
  · exact acts ▸ List.prefix_refl b

/-- Sound fields make an item. -/
theorem act_of_sound (asks : b.Asks a sketch) (sound : sketch.Sound) :
    ∃ i, i.sketch = sketch ∧ b.act a = (b ++ [some i], .ok (.item i)) := by
  obtain ⟨i, fields, made⟩ := Sketch.make_of_sound sound
  refine ⟨i, fields, ?_⟩
  unfold act
  rw [made?_of_asks asks, made]
  rfl

/-- Fields with a flaw make none. -/
theorem act_of_flaw (asks : b.Asks a sketch) (h : sketch.Flaw flaw) :
    b.act a = (b ++ [none], .error (.malformed flaw)) := by
  unfold act
  rw [made?_of_flaw asks h]

theorem act_primary {d : Diagnostic} (held : b.Holds n (.diagnostic d)) :
    b.act (.primary n) = (b, .ok (.item (.label d.primary))) := by
  have told : b.told (.primary n) = .ok (.item (.label d.primary)) := by
    rw [told, item_eq_ok_iff.mpr held]
    rfl
  exact congrArg (Prod.mk b) told

/-! ## Runs -/

theorem run_cons (b : Workbench) (a : Action) (rest : List Action) :
    b.run (a :: rest) =
      (((b.act a).1.run rest).1, (b.act a).2 :: ((b.act a).1.run rest).2) := rfl

theorem run_append (b : Workbench) (first second : List Action) :
    b.run (first ++ second) =
      (((b.run first).1.run second).1, (b.run first).2 ++ ((b.run first).1.run second).2) := by
  induction first generalizing b with
  | nil => rfl
  | cons a rest ih => rw [List.cons_append, run_cons, run_cons, ih]; rfl

/-- **No item changes in a run**, and no number gets another item. -/
theorem prefix_run (b : Workbench) (actions : List Action) : b <+: (b.run actions).1 := by
  induction actions generalizing b with
  | nil => exact List.prefix_refl b
  | cons a rest ih => exact (b.prefix_act a).trans (ih _)

/-- **After a run** the bench has the items that it had, and those that actions of the run asked for, each
under the number that came next at that time. -/
theorem holds_run_iff {actions : List Action} :
    Holds (b.run actions).1 n i ↔ b.Holds n i ∨
      ∃ before a after, actions = before ++ a :: after ∧ (b.run before).1.length = n ∧
        Asks (b.run before).1 a i.sketch := by
  induction actions generalizing b with
  | nil => simp [run]
  | cons a rest ih =>
    rw [run_cons, ih, holds_act_iff, or_assoc]
    refine or_congr_right ⟨?_, ?_⟩
    · rintro (⟨rfl, asks⟩ | ⟨before, x, after, rfl, length, asks⟩)
      · exact ⟨[], a, rest, rfl, rfl, asks⟩
      · exact ⟨a :: before, x, after, rfl, length, asks⟩
    · rintro ⟨_ | ⟨y, before⟩, x, after, split, length, asks⟩
      · obtain ⟨rfl, rfl⟩ := List.cons.inj split
        exact .inl ⟨length.symm, asks⟩
      · obtain ⟨rfl, rfl⟩ := List.cons.inj split
        exact .inr ⟨before, x, after, rfl, length, asks⟩

/-- **What holds after any run.** Every item is sound: a span starts at or after 0 and does not end before
it starts, and a diagnostic has a label, so that its primary label can be asked for. The items are those that
actions of the run asked for, each under the number of its action. The next action makes the item that it asks
for if that is sound; otherwise it is refused for a flaw and makes nothing. Setting a field is always refused.
Whatever follows, the items stay as they are and keep their numbers. -/
theorem run_keeps (actions : List Action) :
    let bench := (run [] actions).1
    (∀ n i, bench.Holds n i → i.sketch.Sound) ∧
    (∀ n i, bench.Holds n i ↔ ∃ before a after, actions = before ++ a :: after ∧
      (run [] before).1.length = n ∧ Asks (run [] before).1 a i.sketch) ∧
    (∀ n d, bench.Holds n (.diagnostic d) → ∃ l, d.labels.head? = some l ∧
      bench.act (.primary n) = (bench, .ok (.item (.label l)))) ∧
    (∀ a sketch, bench.Asks a sketch →
      (sketch.Sound → ∃ i, i.sketch = sketch ∧
        bench.act a = (bench ++ [some i], .ok (.item i))) ∧
      (¬ sketch.Sound → ∃ flaw, sketch.Flaw flaw ∧
        bench.act a = (bench ++ [none], .error (.malformed flaw)))) ∧
    (∀ n field, bench.act (.assign n field) = (bench, .error (.readOnly field))) ∧
    (∀ a, run [] (actions ++ [a]) =
      ((bench.act a).1, (run [] actions).2 ++ [(bench.act a).2])) ∧
    ∀ later, bench <+: (run [] (actions ++ later)).1 := by
  intro bench
  refine ⟨fun n i _ => i.sound, fun n i => ?_, fun n d held => ⟨d.primary, rfl, act_primary held⟩,
    fun a sketch asks => ⟨act_of_sound asks, fun unsound => ?_⟩, fun n field => rfl,
    fun a => run_append [] actions [a], fun later => ?_⟩
  · refine holds_run_iff.trans (or_iff_right ?_)
    simp [Holds]
  · obtain ⟨flaw, h⟩ := sketch.sound_or_flaw.resolve_left unsound
    exact ⟨flaw, h, act_of_flaw asks h⟩
  · rw [run_append]
    exact prefix_run bench later

/-- A span, a label on it and a diagnostic. The start of the span cannot be moved behind its end, although
either alone would do, and the labels cannot be taken from the diagnostic. A shorter copy of the span can be
made, and the label keeps the old one. -/
theorem run_keeps_copies :
    let span : Span := { start := 2, stop := 5 }
    let d : Diagnostic := ⟨"shadowing", "x", .warning, ⟨span, none⟩, []⟩
    let bench := (run [] [.makeSpan 2 5, .makeLabel 0 none,
      .makeDiagnostic "shadowing" "x" "warning" [1]]).1
    bench = [some (.span span), some (.label ⟨span, none⟩), some (.diagnostic d)] ∧
      bench.act (.change 0 (.start 7)) = (bench ++ [none], .error (.malformed (.span 7 5))) ∧
      bench.act (.change 2 (.labels [])) =
        (bench ++ [none], .error (.malformed (.unlabelled "shadowing"))) ∧
      (∃ i, i.sketch = .span 3 5 ∧
        bench.act (.change 0 (.start 3)) = (bench ++ [some i], .ok (.item i))) ∧
      bench <+: (bench.act (.change 0 (.start 3))).1 ∧
      ∃ l, d.labels.head? = some l ∧ bench.act (.primary 2) = (bench, .ok (.item (.label l))) := by
  intro span d bench
  obtain ⟨-, -, primary, asked, -, next, kept⟩ := run_keeps [.makeSpan 2 5, .makeLabel 0 none,
    .makeDiagnostic "shadowing" "x" "warning" [1]]
  refine ⟨by decide, ?_, ?_, ?_, ?_, primary 2 d rfl⟩
  · obtain ⟨flaw, unfit, refused⟩ := (asked (.change 0 (.start 7)) (.span 7 5)
      (.change (i := .span span) rfl (.start span 7))).2 (by simp [Sketch.Sound])
    cases unfit
    exact refused
  · obtain ⟨flaw, unfit, refused⟩ := (asked (.change 2 (.labels []))
      (.diagnostic "shadowing" "x" .warning []) (.change (i := .diagnostic d) rfl
        (.labels d .nil))).2 (by simp [Sketch.Sound])
    cases unfit
    exact refused
  · exact (asked (.change 0 (.start 3)) (.span 3 5)
      (.change (i := .span span) rfl (.start span 3))).1 (by simp [Sketch.Sound])
  · have later := kept [.change 0 (.start 3)]
    rwa [next] at later

end Workbench

end LuaLint
