import Downhill.Logging.Registry
import Mathlib.Data.List.Induction
import Mathlib.Data.List.Nodup

/-!
# Sequences of logging calls

A program gets loggers, sets the level of all of them and configures their output, in any
order and at any time, and some of its calls fail.  The registry stays in order throughout:
its loggers have different names within the one namespace, one handler each and no
propagation, and they all have the level that was last set, no matter whether they were
created before or after that.

Loggers are told apart by their names.  A name outside the namespace and its full name stand
for one logger, which is created once and stays.
-/

namespace Downhill
namespace Logging

/-! ## Calls -/

/-- What a program may ask of the registry. -/
inductive Call
  | get (name : Option String)
  | setLevel (draft : LevelDraft)
  | configure (draft : LevelDraft) (format : Option String) (stream : Stream)
  deriving DecidableEq, Repr

namespace Call

/-- What a call makes of a registry, unless it fails. -/
def perform (r : Registry) : Call → Except Fault Registry
  | get name => .ok (r.get name).2
  | setLevel draft => r.setLevel draft
  | configure draft format stream => r.configure draft format stream

/-- The level that a call asks for. -/
def asked? : Call → Option Int
  | get _ => none
  | setLevel draft => (Level.resolve draft).toOption
  | configure draft _ _ => (Level.resolve draft).toOption

end Call

/-- A registry in use, and the level that was last set by a call that did not fail. -/
structure Session where
  registry : Registry
  lastLevel : Int
  deriving DecidableEq, Repr

namespace Session

def start : Session := ⟨Registry.initial, Level.warning⟩

/-- The session after a call.  A call that fails changes nothing, which `registry_after_run`
compares with a call that goes from logger to logger. -/
def after (s : Session) (call : Call) : Session :=
  match call.perform s.registry with
  | .ok r => ⟨r, call.asked?.getD s.lastLevel⟩
  | .error _ => s

def run (calls : List Call) : Session := calls.foldl after start

end Session

namespace Registry

variable {r next : Registry} {name : String} {level : Int}

/-! ## Names -/

/-- The name of the namespace and the names inside it. -/
def InNamespace (name : String) : Prop := name = root ∨ name.startsWith (root ++ ".") = true

theorem inNamespace_iff :
    InNamespace name ↔ (name = root || name.startsWith (root ++ ".")) = true := by
  rw [Bool.or_eq_true, decide_eq_true_eq]
  rfl

theorem inNamespace_inside (name : String) : InNamespace (root ++ "." ++ name) := by
  refine Or.inr (String.startsWith_string_iff.mpr ?_)
  have happend : (root ++ "." ++ name).toList = (root ++ ".").toList ++ name.toList :=
    String.toList_append
  rw [happend]
  exact List.prefix_append _ _

theorem fullName_of_inNamespace (h : InNamespace name) : fullName (some name) = name :=
  if_pos (inNamespace_iff.mp h)

theorem fullName_of_not_inNamespace (h : ¬InNamespace name) :
    fullName (some name) = root ++ "." ++ name :=
  if_neg fun htest => h (inNamespace_iff.mpr htest)

theorem inNamespace_fullName (name : Option String) : InNamespace (fullName name) := by
  cases name with
  | none => exact Or.inl rfl
  | some name =>
    by_cases h : InNamespace name
    · rw [fullName_of_inNamespace h]
      exact h
    · rw [fullName_of_not_inNamespace h]
      exact inNamespace_inside name

/-- A name outside the namespace means the same as the name inside it that it is put into. -/
theorem fullName_inside (h : ¬InNamespace name) :
    fullName (some (root ++ "." ++ name)) = fullName (some name) := by
  rw [fullName_of_inNamespace (inNamespace_inside name), fullName_of_not_inNamespace h]

/-- The names of all loggers. -/
def names (r : Registry) : List String := r.loggers.map (·.name)

theorem find?_eq_none_iff : r.find? name = none ↔ name ∉ r.names := by
  simp [find?, names, List.find?_eq_none]

/-- A logger that is there is found, and none is created. -/
theorem getFull_of_mem (h : name ∈ r.names) :
    ∃ logger ∈ r.loggers, logger.name = name ∧ r.getFull name = (logger, r) := by
  cases hfind : r.find? name with
  | none => exact absurd h (find?_eq_none_iff.mp hfind)
  | some logger =>
    have hname : logger.name = name := by simpa using List.find?_some hfind
    refine ⟨logger, List.mem_of_find?_eq_some hfind, hname, ?_⟩
    rw [getFull, hfind]

theorem getFull_of_not_mem (h : name ∉ r.names) :
    (r.getFull name).2 = { r with loggers := r.loggers ++ [newLogger name r.defaultLevel] } := by
  rw [getFull, find?_eq_none_iff.mpr h]

theorem names_getFull :
    (r.getFull name).2.names = if name ∈ r.names then r.names else r.names ++ [name] := by
  split
  · next h =>
    obtain ⟨logger, -, -, hfound⟩ := getFull_of_mem h
    rw [hfound]
  · next h =>
    rw [getFull_of_not_mem h]
    simp [names, newLogger]

theorem mem_names_getFull : name ∈ (r.getFull name).2.names := by
  rw [names_getFull]
  split
  · next h => exact h
  · exact List.mem_append_right _ (List.mem_singleton_self name)

end Registry

/-! ## Loggers in order -/

namespace Logger

variable {logger : Logger} {old level : Int}

/-- A logger whose level, and that of its handlers, is set. -/
def atLevel (level : Int) (logger : Logger) : Logger :=
  { logger with level, handlers := logger.handlers.map fun handler => { handler with level } }

/-- A logger whose level is set and whose handlers give way to a new one. -/
def handledBy (format : Format) (stream : Stream) (level : Int) (logger : Logger) : Logger :=
  { logger with level, handlers := [⟨level, format, stream⟩] }

/-- A logger in the namespace with one handler, both at one level, that keeps its records for
itself. -/
structure Settled (logger : Logger) (level : Int) : Prop where
  inNamespace : Registry.InNamespace logger.name
  level_eq : logger.level = level
  propagate_eq : logger.propagate = false
  handlers_eq : ∃ handler, logger.handlers = [handler] ∧ handler.level = level

theorem settled_new {name : String} (h : Registry.InNamespace name) (level : Int) :
    (Registry.newLogger name level).Settled level :=
  ⟨h, rfl, rfl, _, rfl, rfl⟩

theorem Settled.atLevel (h : logger.Settled old) (level : Int) :
    (logger.atLevel level).Settled level := by
  obtain ⟨handler, hhandlers, -⟩ := h.handlers_eq
  refine ⟨h.inNamespace, rfl, h.propagate_eq, { handler with level }, ?_, rfl⟩
  rw [Logger.atLevel, hhandlers]
  rfl

theorem Settled.handledBy (h : logger.Settled old) (format : Format) (stream : Stream)
    (level : Int) : (logger.handledBy format stream level).Settled level :=
  ⟨h.inNamespace, rfl, h.propagate_eq, _, rfl, rfl⟩

end Logger

namespace Registry

variable {r next : Registry} {name : String} {old level : Int}

/-- All loggers changed, and the level of new ones. -/
def relevel (r : Registry) (change : Logger → Logger) (level : Int) : Registry :=
  { r with loggers := r.loggers.map change, defaultLevel := level }

/-! ## Logger by logger

A level is given to one logger after another, and to those to come at the end.  What is no
level is refused by the first logger, before anything has changed. -/

/-- Loggers changed one after another, up to the first whose change fails. -/
def changeEach (change : Logger → Except Fault Logger) :
    List Logger → List Logger × Except Fault Unit
  | [] => ([], .ok ())
  | logger :: rest => match change logger with
    | .ok changed =>
      let (rest, outcome) := changeEach change rest
      (changed :: rest, outcome)
    | .error fault => (logger :: rest, .error fault)

theorem changeEach_ok (change : Logger → Logger) (loggers : List Logger) :
    changeEach (fun logger => .ok (change logger)) loggers = (loggers.map change, .ok ()) := by
  induction loggers with
  | nil => rfl
  | cons logger rest ih => simp only [changeEach, ih, List.map_cons]

/-- A level given to the loggers one by one, each of which finds out whether it is one. -/
def relevelEach (r : Registry) (change : Int → Logger → Logger) (draft : LevelDraft) :
    Registry × Except Fault Unit :=
  let (loggers, outcome) := changeEach (fun logger => (change · logger) <$> Level.resolve draft)
    r.loggers
  match outcome with
  | .ok _ =>
    ({ r with loggers, defaultLevel := (Level.resolve draft).toOption.getD r.defaultLevel }, .ok ())
  | .error fault => ({ r with loggers }, .error fault)

/-- The first logger refuses what is no level, so all of them change or none does. -/
theorem relevelEach_eq (h : r.loggers ≠ []) (change : Int → Logger → Logger)
    (draft : LevelDraft) : r.relevelEach change draft = match Level.resolve draft with
      | .ok level => (r.relevel (change level) level, .ok ())
      | .error fault => (r, .error fault) := by
  unfold relevelEach
  cases hlevel : Level.resolve draft with
  | ok level =>
    have heach := changeEach_ok (change level) r.loggers
    simp only [Except.map_ok, heach]
    rfl
  | error fault =>
    obtain ⟨logger, rest, hloggers⟩ := List.exists_cons_of_ne_nil h
    simp only [Except.map_error, hloggers, changeEach]
    rw [← hloggers]

/-- A call that goes from logger to logger, with what it leaves behind if it fails. -/
def performEach (r : Registry) : Call → Registry × Except Fault Unit
  | .get name => ((r.get name).2, .ok ())
  | .setLevel draft => r.relevelEach Logger.atLevel draft
  | .configure draft format stream => match chooseFormat format with
    | .ok format => r.relevelEach (Logger.handledBy format stream) draft
    | .error fault => (r, .error fault)

/-- A call does everything or nothing. -/
theorem performEach_eq (h : r.loggers ≠ []) (call : Call) :
    r.performEach call = match call.perform r with
      | .ok next => (next, .ok ())
      | .error fault => (r, .error fault) := by
  cases call with
  | get name => rfl
  | setLevel draft =>
    rw [performEach, relevelEach_eq h, Call.perform, setLevel]
    cases Level.resolve draft <;> rfl
  | configure draft format stream =>
    rw [performEach, Call.perform, configure]
    cases chooseFormat format with
    | error fault => rfl
    | ok format =>
      simp only [relevelEach_eq h]
      cases Level.resolve draft <;> rfl

/-- A call that does not fail gets a logger, or brings all of them to the level it asks for. -/
theorem perform_cases {call : Call} (h : call.perform r = .ok next) :
    (call.asked? = none ∧ ∃ name, InNamespace name ∧ next = (r.getFull name).2) ∨
      ∃ level change, call.asked? = some level ∧ next = r.relevel change level ∧
        (∀ logger, (change logger).name = logger.name) ∧
        ∀ logger old, logger.Settled old → (change logger).Settled level := by
  cases call with
  | get name =>
    cases h
    exact Or.inl ⟨rfl, fullName name, inNamespace_fullName name, rfl⟩
  | setLevel draft =>
    obtain ⟨level, hlevel, h⟩ := Fault.bind_eq_ok_iff.mp h
    cases h
    refine Or.inr ⟨level, _, ?_, rfl, fun _ => rfl, fun _ _ h => h.atLevel level⟩
    rw [Call.asked?, hlevel]
    rfl
  | configure draft format stream =>
    obtain ⟨format, -, h⟩ := Fault.bind_eq_ok_iff.mp h
    obtain ⟨level, hlevel, h⟩ := Fault.bind_eq_ok_iff.mp h
    cases h
    refine Or.inr ⟨level, _, ?_, rfl, fun _ => rfl, fun _ _ h => h.handledBy format stream level⟩
    rw [Call.asked?, hlevel]
    rfl

/-- A registry whose loggers, and those to come, have all one level. -/
structure Orderly (r : Registry) (level : Int) : Prop where
  default_eq : r.defaultLevel = level
  distinct : r.names.Nodup
  settled : ∀ logger ∈ r.loggers, logger.Settled level

theorem orderly_initial : initial.Orderly Level.warning where
  default_eq := rfl
  distinct := by decide
  settled := by
    intro logger hmem
    obtain ⟨name, hname, rfl⟩ := List.mem_map.mp hmem
    have hinside : ∀ name ∈ [Report.searchLogger, Report.descentLogger, Report.stochasticLogger],
        InNamespace name := by
      simp only [List.forall_mem_cons]
      exact ⟨inNamespace_inside "line_search", inNamespace_inside "solver",
        inNamespace_inside "stochastic", List.forall_mem_nil _⟩
    exact Logger.settled_new (hinside name hname) _

theorem Orderly.getFull (h : r.Orderly level) (hname : InNamespace name) :
    (r.getFull name).2.Orderly level := by
  by_cases hmem : name ∈ r.names
  · obtain ⟨logger, -, -, hfound⟩ := getFull_of_mem hmem
    rw [hfound]
    exact h
  · have hnames : (r.getFull name).2.names = r.names ++ [name] := by
      rw [names_getFull, if_neg hmem]
    refine ⟨?_, ?_, ?_⟩
    · rw [getFull_of_not_mem hmem]
      exact h.default_eq
    · rw [hnames, ← List.concat_eq_append]
      exact h.distinct.concat hmem
    · rw [getFull_of_not_mem hmem]
      intro logger hlogger
      rcases List.mem_append.mp hlogger with hlogger | hlogger
      · exact h.settled logger hlogger
      · rw [List.mem_singleton.mp hlogger, h.default_eq]
        exact Logger.settled_new hname level

theorem names_relevel {change : Logger → Logger} (h : ∀ logger, (change logger).name = logger.name) :
    (r.relevel change level).names = r.names := by
  simp [names, relevel, h]

theorem Orderly.relevel {change : Logger → Logger} (h : r.Orderly old)
    (hname : ∀ logger, (change logger).name = logger.name)
    (hsettled : ∀ logger old, logger.Settled old → (change logger).Settled level) :
    (r.relevel change level).Orderly level where
  default_eq := rfl
  distinct := by
    rw [names_relevel hname]
    exact h.distinct
  settled := by
    intro logger hmem
    obtain ⟨former, hformer, rfl⟩ := List.mem_map.mp hmem
    exact hsettled former old (h.settled former hformer)

end Registry

/-! ## Sessions -/

namespace Session

open Registry (InNamespace root)

variable {s : Session}

theorem orderly_after (h : s.registry.Orderly s.lastLevel) (call : Call) :
    (s.after call).registry.Orderly (s.after call).lastLevel := by
  unfold after
  cases hcall : call.perform s.registry with
  | error fault => exact h
  | ok next =>
    rcases Registry.perform_cases hcall with
      ⟨hasked, name, hname, rfl⟩ | ⟨level, change, hasked, rfl, hname, hsettled⟩
    · simp only [hasked, Option.getD_none]
      exact h.getFull hname
    · simp only [hasked, Option.getD_some]
      exact h.relevel hname hsettled

/-- A logger that is there stays in its place. -/
theorem names_after (s : Session) (call : Call) :
    s.registry.names <+: (s.after call).registry.names := by
  unfold after
  cases hcall : call.perform s.registry with
  | error fault => exact List.prefix_refl _
  | ok next =>
    rcases Registry.perform_cases hcall with ⟨-, name, -, rfl⟩ | ⟨level, change, -, rfl, hname, -⟩
    · simp only [Registry.names_getFull]
      split
      · exact List.prefix_refl _
      · exact List.prefix_append _ _
    · simp only [Registry.names_relevel hname, List.prefix_refl]

theorem names_foldl (s : Session) (calls : List Call) :
    s.registry.names <+: (calls.foldl after s).registry.names := by
  induction calls generalizing s with
  | nil => exact List.prefix_refl _
  | cons call calls ih => exact (names_after s call).trans (ih _)

theorem orderly_run (calls : List Call) : (run calls).registry.Orderly (run calls).lastLevel := by
  induction calls using List.reverseRecOn with
  | nil => exact Registry.orderly_initial
  | append_singleton calls call ih =>
    rw [run, List.foldl_append]
    exact orderly_after ih call

/-- A logger that was got once is there from then on. -/
theorem mem_names_run (calls : List Call) (name : Option String) (later : List Call) :
    Registry.fullName name ∈ (run (calls ++ .get name :: later)).registry.names := by
  rw [run, List.foldl_append, List.foldl_cons]
  exact (names_foldl _ later).subset Registry.mem_names_getFull

/-- What a call leaves behind on its way from logger to logger is what the session keeps. -/
theorem registry_after_run (calls : List Call) (call : Call) :
    ((run calls).after call).registry = ((run calls).registry.performEach call).1 := by
  have hsome : (run calls).registry.loggers ≠ [] := by
    intro hnone
    have hnames := names_foldl start calls
    rw [← run, Registry.names, Registry.names, hnone, List.map_nil, List.prefix_nil] at hnames
    exact absurd hnames (List.cons_ne_nil _ _)
  rw [Registry.performEach_eq hsome, after]
  cases call.perform (run calls).registry <;> rfl

/-- After any calls, whether they fail or not, every logger has one handler and does not
propagate, it and its handler have the level that was last set, and its name, which no other
logger has, is in the namespace.  A name outside the namespace and the full name give the
same logger, at once and after any later calls: no other one is ever created. -/
theorem run_in_order (calls : List Call) :
    (∀ logger ∈ (run calls).registry.loggers, logger.Settled (run calls).lastLevel) ∧
      (run calls).registry.names.Nodup ∧
      ∀ name, ¬InNamespace name →
        (run calls).registry.get (some (root ++ "." ++ name)) =
            (run calls).registry.get (some name) ∧
          ∀ later, let r := (run (calls ++ .get (some name) :: later)).registry
            ∃ logger ∈ r.loggers, logger.name = root ++ "." ++ name ∧
              r.get (some (root ++ "." ++ name)) = (logger, r) := by
  refine ⟨(orderly_run calls).settled, (orderly_run calls).distinct, fun name hname => ⟨?_, ?_⟩⟩
  · unfold Registry.get
    rw [Registry.fullName_inside hname]
  · intro later
    have hmem := mem_names_run calls (some name) later
    rw [Registry.fullName_of_not_inNamespace hname] at hmem
    obtain ⟨logger, hlogger, hnamed, hfound⟩ := Registry.getFull_of_mem hmem
    refine ⟨logger, hlogger, hnamed, ?_⟩
    rw [Registry.get, Registry.fullName_of_inNamespace (Registry.inNamespace_inside name)]
    exact hfound

theorem run_in_order_after_failures :
    let calls : List Call := [.get (some "a"), .setLevel (.name "basic_format"),
      .configure (.name "error") none (.named "s"), .configure (.number 7) (some "a") (.named "s"),
      .get (some "b"), .setLevel .other]
    (run calls).registry.loggers.length = 5 ∧
      (∀ logger ∈ (run calls).registry.loggers, logger.Settled 40) ∧
      ¬InNamespace "a" ∧
      (run calls).registry.get (some "descentkit.a") = (run calls).registry.get (some "a") := by
  intro calls
  obtain ⟨hsettled, -, hsame⟩ := run_in_order calls
  have hname : ¬InNamespace "a" := by
    rw [InNamespace, String.startsWith_string_iff]
    decide
  exact ⟨by decide, hsettled, hname, (hsame "a" hname).1⟩

end Session

end Logging
end Downhill
