import LuaLint.Command.Run
import LuaLint.Lua.Tree
import LuaLint.Proofs.Outcome

/-!
# The log over the runs of a process

A process may run the program many times, and each verbose run leaves its sink behind. The next run that
begins has to find it again. All that is known of the sinks is what the library promises
(`LogLibrary.Lawful`); counted sinks keep the promise (`LogLibrary.numbered_lawful`).

* **The invariant** (`Logger.Tidy`): the only sink that can be installed is the one that the program knows
  of. It holds when the program has been loaded (`Logger.tidy_start`).
* **The beginning of a run** keeps it (`Logger.begin_of_tidy`). The sink of the last verbose run is there to
  be removed, and then there is one new sink or none, as the run is verbose or not.
* **A run** that is not begun leaves the logger as it was (`run_usage`), and any other leaves it as it was
  at its beginning, however it ends (`run_of_begun`). So the invariant holds between any two runs of a
  process (`tidy_loggerAfter`).
* **What is written** (`run_logs`): each record of a verbose run once, whatever runs came before, and no
  record of another run.
-/

namespace LuaLint

/-- **Counted sinks keep the promise of a library.** -/
theorem LogLibrary.numbered_lawful : LogLibrary.numbered.Lawful where
  add_unused _ there := Nat.lt_irrefl _ (List.mem_range.mp there)
  installed_add _ := rfl
  used_add _ := List.range_succ
  remove_installed s number there := ⟨s.erase number, if_pos (List.contains_iff_mem.mpr there), rfl, rfl⟩
  remove_unknown _ _ missing :=
    if_neg fun there => missing (List.contains_iff_mem.mp there)
  installed_removeAll _ := rfl
  used_removeAll _ := rfl
  used_of_installed s number there := List.mem_range.mpr (s.lt_fresh number there)

namespace Logger

variable {σ : Type} {lib : LogLibrary σ} {l : Logger σ}

/-- No sink is installed but the one that the program knows of. -/
def Tidy (lib : LogLibrary σ) (l : Logger σ) : Prop := lib.installed l.sinks = l.verboseSink.toList

section library

variable (lawful : lib.Lawful)
include lawful

theorem tidy_start (s : σ) : (start lib s).Tidy lib := lawful.installed_removeAll s

/-- The old sink can be removed, and then there is none. -/
theorem reset_of_tidy (tidy : l.Tidy lib) : ∃ s, l.reset lib = .ok { sinks := s } ∧
    lib.installed s = [] ∧ lib.used s = lib.used l.sinks := by
  obtain ⟨sinks, known⟩ := l
  cases known with
  | none => exact ⟨sinks, rfl, tidy, rfl⟩
  | some number =>
    have one : lib.installed sinks = [number] := tidy
    obtain ⟨s, removed, left, used⟩ :=
      lawful.remove_installed sinks number (one ▸ List.mem_singleton_self number)
    refine ⟨s, ?_, ?_, used⟩
    · simp only [reset, removed, bind, Except.bind, pure, Except.pure]
    · rw [left, one, List.erase_cons_head]

/-- **A run begins with a sink of its own or with none.** Its number is a new one, and none is given back. -/
theorem begin_of_tidy (tidy : l.Tidy lib) (verbose : Bool) : ∃ m, l.begin lib verbose = .ok m ∧
    m.Tidy lib ∧ m.verboseSink.isSome = verbose ∧ (∀ number ∈ lib.used l.sinks, number ∈ lib.used m.sinks) ∧
    ∀ number ∈ m.verboseSink, number ∉ lib.used l.sinks := by
  obtain ⟨s, reset, none, used⟩ := reset_of_tidy lawful tidy
  cases verbose with
  | false =>
    refine ⟨{ sinks := s }, by rw [begin, reset]; rfl, none, rfl, fun number there => ?_, by simp⟩
    rwa [used]
  | true =>
    refine ⟨⟨(lib.add s).2, some (lib.add s).1⟩, by rw [begin, reset]; rfl, ?_, rfl, ?_, ?_⟩
    · rw [Tidy, lawful.installed_add, none]
      rfl
    · intro number there
      rw [lawful.used_add, used]
      exact List.mem_append_left _ there
    · intro number new
      obtain rfl := Option.some.inj new
      rw [← used]
      exact lawful.add_unused s

end library

/-- The number that the program knows is that of the only sink. -/
theorem Tidy.installed (tidy : l.Tidy lib) {number : Nat} (known : l.verboseSink = some number) :
    lib.installed l.sinks = [number] := by
  rw [tidy, known]
  rfl

/-- With one sink, or with none, each record is written once or not at all. -/
theorem Tidy.written (tidy : l.Tidy lib) (e : LogEvent) :
    l.written lib e = if l.verboseSink.isSome then [e] else [] := by
  rw [Logger.written, tidy]
  cases l.verboseSink <;> rfl

end Logger

namespace Command

variable {σ : Type} {lib : LogLibrary σ} {host : Host} {registry : Registry Toml.Value} {l m : Logger σ}
  {verbose : Bool} {command : CheckLine}

/-! ## Runs -/

/-- What a run starts from. -/
structure Invocation where
  disk : Disk
  line : Line

/-- The logger after several runs in one process. -/
def loggerAfter (lib : LogLibrary σ) (host : Host) (registry : Registry Toml.Value) (l : Logger σ)
    (runs : List Invocation) : Logger σ :=
  runs.foldl (fun l r => (run lib host r.disk registry l r.line).1) l

/-- A run that is not begun leaves the logger as it is. -/
theorem run_usage (lib : LogLibrary σ) (host : Host) (d : Disk) (registry : Registry Toml.Value)
    (l : Logger σ) (code : Nat) : run lib host d registry l (.usage code) = (l, .usage code) :=
  rfl

/-- No file makes the logger fail. -/
theorem checkFiles_ne_logger (parser : Parser) (d : Disk) (l : Linter) (denyWarnings : Bool)
    (files : List Path) (e : UnknownSink) :
    (checkFiles parser d l denyWarnings files).2 ≠ .error (.logger e) := by
  induction files with
  | nil => nofun
  | cons file rest ih =>
    have first : (checkFile parser d l denyWarnings file).2 ≠ .error (.logger e) := by
      unfold checkFile
      split
      · nofun
      · dsimp only
        split <;> nofun
    unfold checkFiles
    dsimp only
    split
    · rename_i crash failed
      exact failed ▸ first
    · exact mt Outcome.map_eq_error_iff.mp ih

/-- A command does not make the logger fail. -/
theorem check_ne_logger (host : Host) (recorded : Bool) (d : Disk) (registry : Registry Toml.Value)
    (paths : List Path) (denyWarnings : Bool) (e : UnknownSink) :
    (check host recorded d registry paths denyWarnings).2 ≠ .error (.logger e) := by
  unfold check
  dsimp only
  split
  · nofun
  · split
    · nofun
    · exact mt Outcome.map_eq_error_iff.mp (checkFiles_ne_logger host.parser d _ denyWarnings _ e)

/-- A run that is begun has the logger that it began with, however it ends, and the logger is not what makes
it end. -/
theorem run_of_begun (begun : l.begin lib verbose = .ok m) (host : Host) (d : Disk)
    (registry : Registry Toml.Value) (command : CheckLine) :
    (run lib host d registry l (.begun verbose command)).1 = m ∧
      ∀ e written, (run lib host d registry l (.begun verbose command)).2 ≠
        .crash (.logger e) written := by
  rw [run]
  simp only [begun]
  rcases command with code | ⟨paths, denyWarnings⟩
  · exact ⟨rfl, nofun⟩
  · have failure := check_ne_logger host (m.recorded lib) d registry (paths.map Path.ofText) denyWarnings
    rcases outcome : check host (m.recorded lib) d registry (paths.map Path.ofText) denyWarnings with
      ⟨written, crash | code⟩
    · simp only [outcome]
      refine ⟨trivial, fun e others same => failure e ?_⟩
      rw [outcome, (Outcome.crash.inj same).1]
    · simp only [outcome]
      exact ⟨trivial, nofun⟩

section library

variable (lawful : lib.Lawful) (host registry)
include lawful

/-- **A run keeps the invariant**, and gives no number back. -/
theorem tidy_run (tidy : l.Tidy lib) (r : Invocation) :
    (run lib host r.disk registry l r.line).1.Tidy lib ∧ ∀ number ∈ lib.used l.sinks,
      number ∈ lib.used (run lib host r.disk registry l r.line).1.sinks := by
  obtain ⟨d, code | ⟨verbose, command⟩⟩ := r
  · exact ⟨tidy, fun _ there => there⟩
  · obtain ⟨m, begun, tidy', -, keeps, -⟩ := Logger.begin_of_tidy lawful tidy verbose
    rw [(run_of_begun begun host d registry command).1]
    exact ⟨tidy', keeps⟩

/-- **Any number of runs keep the invariant.** -/
theorem tidy_loggerAfter (tidy : l.Tidy lib) (runs : List Invocation) :
    (loggerAfter lib host registry l runs).Tidy lib ∧ ∀ number ∈ lib.used l.sinks,
      number ∈ lib.used (loggerAfter lib host registry l runs).sinks := by
  induction runs generalizing l with
  | nil => exact ⟨tidy, fun _ there => there⟩
  | cons r runs ih =>
    obtain ⟨tidy', keeps⟩ := tidy_run host registry lawful tidy r
    obtain ⟨tidy'', keeps'⟩ := ih tidy'
    exact ⟨tidy'', fun number there => keeps' number (keeps number there)⟩

/-- What was a sink after some of the runs has a number that is used up after all of them. -/
theorem used_loggerAfter (tidy : l.Tidy lib) {past runs : List Invocation} (before : past <+: runs)
    {number : Nat} (there : number ∈ lib.installed (loggerAfter lib host registry l past).sinks) :
    number ∈ lib.used (loggerAfter lib host registry l runs).sinks := by
  obtain ⟨rest, rfl⟩ := before
  have resumed : loggerAfter lib host registry l (past ++ rest) =
      loggerAfter lib host registry (loggerAfter lib host registry l past) rest := List.foldl_append
  rw [resumed]
  have tidy' := (tidy_loggerAfter host registry lawful tidy past).1
  exact (tidy_loggerAfter host registry lawful tidy' rest).2 number
    (lawful.used_of_installed _ number there)

end library

/-! ## What is written -/

/-- The line on standard error for what a run writes: an error has one, and a record of the log has one in a
verbose run. -/
def errorLine? (wording : LogEvent → String) (verbose : Bool) : Message → Option String
  | .report _ => none
  | .error text => some text
  | .log event => if verbose then some (wording event) else none

/-- With one sink, or with none, each record of the log makes one line or none. -/
theorem standardError_eq_filterMap {wording : LogEvent → String}
    (copies : ∀ event, m.written lib event = if verbose then [event] else []) (written : List Message) :
    standardError lib wording m written = written.filterMap (errorLine? wording verbose) := by
  induction written with
  | nil => rfl
  | cons first rest ih =>
    unfold standardError at ih ⊢
    rw [List.flatMap_cons, ih]
    cases first with
    | report text => rfl
    | error text => rfl
    | log event =>
      dsimp only
      rw [copies]
      cases verbose <;> rfl

/-- **The log over the runs of a process**, whatever the library is that keeps the sinks and whatever sinks
there are when the program is loaded. Whatever runs came before, the sink that the program knows of is the
one that is installed, so the logger never fails to find a sink that it is asked to remove. A run that is not
begun leaves the logger as it is. After the beginning of a verbose run there is one sink, under a number that
no sink had before and that the program knows; after that of any other there is none, and the program knows
of none. So each record of a verbose run is written once and no record of another run is. -/
theorem run_logs (lawful : lib.Lawful) (s : σ) (host : Host) (registry : Registry Toml.Value)
    (earlier : List Invocation) (d : Disk) (line : Line) :
    let l := loggerAfter lib host registry (.start lib s) earlier
    let after := run lib host d registry l line
    lib.installed l.sinks = l.verboseSink.toList ∧
    (∀ e written, after.2 ≠ .crash (.logger e) written) ∧
    (∀ code, line = .usage code → after = (l, .usage code)) ∧
    ∀ verbose command, line = .begun verbose command →
      l.begin lib verbose = .ok after.1 ∧
      (verbose = true → ∃ number, lib.installed after.1.sinks = [number] ∧
        after.1.verboseSink = some number ∧ number ∉ lib.used s ∧ ∀ past, past <+: earlier →
          number ∉ lib.installed (loggerAfter lib host registry (.start lib s) past).sinks) ∧
      (verbose = false → lib.installed after.1.sinks = [] ∧ after.1.verboseSink = none) ∧
      (∀ event, after.1.written lib event = if verbose then [event] else []) ∧
      ∀ wording written, standardError lib wording after.1 written =
        written.filterMap (errorLine? wording verbose) := by
  intro l after
  have start := Logger.tidy_start lawful s
  obtain ⟨tidy, keeps⟩ := tidy_loggerAfter host registry lawful start earlier
  rcases line with code | ⟨verbose, command⟩
  · refine ⟨tidy, nofun, ?_, nofun⟩
    rintro _ ⟨⟩
    exact run_usage lib host d registry l code
  · obtain ⟨m, begun, tidy', sink, -, new⟩ := Logger.begin_of_tidy lawful tidy verbose
    obtain ⟨same, sound⟩ : after.1 = m ∧ _ := run_of_begun begun host d registry command
    refine ⟨tidy, sound, nofun, ?_⟩
    rintro _ _ ⟨⟩
    have copies : ∀ event, m.written lib event = if verbose then [event] else [] := by
      intro event
      rw [tidy'.written, sink]
    rw [same]
    refine ⟨begun, ?_, ?_, copies, fun wording written => standardError_eq_filterMap copies written⟩
    · rintro rfl
      obtain ⟨number, known⟩ := Option.isSome_iff_exists.mp sink
      have fresh := new number known
      refine ⟨number, tidy'.installed known, known, fun there => fresh (keeps number ?_), ?_⟩
      · exact (lawful.used_removeAll s).symm ▸ there
      · intro past before there
        exact fresh (used_loggerAfter host registry lawful start before there)
    · rintro rfl
      have none : m.verboseSink = none := Option.not_isSome_iff_eq_none.mp (by simp [sink])
      exact ⟨by rw [tidy', none]; rfl, none⟩

/-- A verbose run, one that is not begun, one that is not verbose, and a verbose one that ends with a usage
message. The sink of the last is there when the next run begins, which is verbose or not. -/
theorem run_logs_resumed :
    let lib := LogLibrary.numbered
    let host : Host := { parser := Lua.parser }
    let d : Disk := { cwd := [] }
    let loud : Line := .begun true (.check ["b.lua"] false)
    let plain : Line := .begun false (.check ["b.lua"] false)
    let earlier : List Invocation := [⟨d, loud⟩, ⟨d, .usage 2⟩, ⟨d, plain⟩, ⟨d, .begun true (.usage 2)⟩]
    let l := loggerAfter lib host Registry.standard (.start lib .initial) earlier
    let after (line : Line) := run lib host d Registry.standard l line
    let wording (e : LogEvent) : String := e.level.word
    let written : List Message := [.log (.filesFound 1), .error "e", .report "r"]
    (after (.usage 2)).1 = l ∧
      (∃ number, lib.installed (after loud).1.sinks = [number] ∧ number ∉ lib.installed l.sinks) ∧
      standardError lib wording (after loud).1 written = ["INFO", "e"] ∧
      lib.installed (after plain).1.sinks = [] ∧
      standardError lib wording (after plain).1 written = ["e"] := by
  intro lib host d loud plain earlier l after wording written
  have logs := run_logs LogLibrary.numbered_lawful .initial host Registry.standard earlier d
  obtain ⟨-, -, unchanged, -⟩ := logs (.usage 2)
  obtain ⟨-, -, -, logged⟩ := logs loud
  obtain ⟨-, sink, -, -, lines⟩ := logged _ _ rfl
  obtain ⟨number, one, -, -, new⟩ := sink rfl
  obtain ⟨-, -, -, silent⟩ := logs plain
  obtain ⟨-, -, none, -, lines'⟩ := silent _ _ rfl
  have same : after (.usage 2) = (l, .usage 2) := unchanged _ rfl
  refine ⟨by rw [same], ⟨number, one, new earlier (List.prefix_refl _)⟩, lines wording written,
    (none rfl).1, lines' wording written⟩

end Command

end LuaLint
