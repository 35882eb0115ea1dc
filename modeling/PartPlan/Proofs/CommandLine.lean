/-
What a run of the program comes to. A run reads a part, reads overrides if it is told
to, and compiles; `Compiles` says that all three stages do their work, `FirstFailure`
which one is the first that does not, and with what error. One of them holds of every
run, and the answer is the plan or the report of the error, written on lines.

Lines change nothing: to every reader the text denotes what the compact text does. The
plan is read back from it if the reader takes its brackets and gives its numbers back,
and neither goes without saying. A plan may have one bracket more than the part it is
made from, because selectors are written with lists that may be left out where they are
empty; so the plan of a part with as many brackets as a reader takes may have too many
for it. And a reader that rounds a number more than once may read another one.
-/
import PartPlan.CommandLine
import PartPlan.Proofs.Document.Plan
import PartPlan.Proofs.Plan.CacheKey

namespace PartPlan.CommandLine

open Number (Rounding)

-- ================================================================== stages

section Stages

variable (around : Surroundings)

/-- A file holds a part. -/
def PartAt (path : String) (p : Part) : Prop :=
  ∃ text, around.files path = .ok text
    ∧ (Json.parse? around.rounding text).bind Part.ofJson? = some p

/-- A file holds no part, because it is not read or because of what is in it. -/
inductive PartRefused (path : String) : ValidationError → Prop
  | unread {why : String} (missing : around.files path = .error why) :
      PartRefused path (.unreadable ("cannot read " ++ path ++ ": " ++ why))
  | unparsed {text : String} (read : around.files path = .ok text)
      (refused : (Json.parse? around.rounding text).bind Part.ofJson? = none) :
      PartRefused path (.unreadable (around.noPart text))

/-- The overrides of a run are those in the file that is named, or none. -/
def OverridesAt : Option String → Overrides → Prop
  | none, given => given = .empty
  | some path, given =>
    ∃ text, around.files path = .ok text ∧ parseOverrides? around.rounding text = some given

/-- The file that is named holds no overrides. -/
inductive OverridesRefused : Option String → ValidationError → Prop
  | unread {path why : String} (missing : around.files path = .error why) :
      OverridesRefused (some path) (.unreadable ("cannot read " ++ path ++ ": " ++ why))
  | unparsed {path text : String} (read : around.files path = .ok text)
      (refused : parseOverrides? around.rounding text = none) :
      OverridesRefused (some path)
        (.unreadable ("invalid overrides " ++ path ++ ": " ++ around.noOverrides text))

/-- Every stage of a run does its work, and the last one makes a plan. -/
def Compiles (part : String) (overrides : Option String) (made : BuildPlan) : Prop :=
  ∃ p given, PartAt around part p ∧ OverridesAt around overrides given
    ∧ p.compile given (Options.ofEnvironment around.environment) = .ok made

/-- The error of the first stage of a run that fails. -/
inductive FirstFailure (part : String) (overrides : Option String) : CompileError → Prop
  | part {e : ValidationError} (refused : PartRefused around part e) :
      FirstFailure part overrides (.validation e)
  | overrides {p : Part} {e : ValidationError} (read : PartAt around part p)
      (refused : OverridesRefused around overrides e) : FirstFailure part overrides (.validation e)
  | compile {p : Part} {given : Overrides} {e : CompileError} (read : PartAt around part p)
      (held : OverridesAt around overrides given)
      (refused : p.compile given (Options.ofEnvironment around.environment) = .error e) :
      FirstFailure part overrides e

end Stages

variable {around : Surroundings} {part path text : String} {overrides : Option String}

-- =================================================== the stages one by one

/-- The part in a file. -/
def readPart (around : Surroundings) (path : String) : Except ValidationError Part := do
  Part.parse around.rounding around.noPart (← readText around path)

/-- The overrides in a file, or none. -/
def readGiven (around : Surroundings) : Option String → Except ValidationError Overrides
  | none => .ok .empty
  | some path => readOverrides around path

theorem plan_eq (part : String) (overrides : Option String) :
    plan around part overrides = ((readPart around part).mapError .validation >>=
      fun p => (readGiven around overrides).mapError .validation >>=
      fun given => p.compile given (Options.ofEnvironment around.environment)) := by
  unfold plan readPart
  rw [Checked.mapError_bind, bind_assoc]
  cases overrides <;> rfl

theorem readText_eq_ok : readText around path = .ok text ↔ around.files path = .ok text := by
  unfold readText
  cases around.files path <;> simp

theorem readText_eq_error {e : ValidationError} : readText around path = .error e
    ↔ ∃ why, around.files path = .error why
      ∧ e = .unreadable ("cannot read " ++ path ++ ": " ++ why) := by
  unfold readText
  cases around.files path <;> simp [eq_comm]

theorem readPart_eq_ok {p : Part} : readPart around path = .ok p ↔ PartAt around path p := by
  refine Checked.bind_eq_ok.trans (exists_congr fun text => ?_)
  rw [readText_eq_ok, Part.parse_eq_ok]

theorem readPart_eq_error {e : ValidationError} :
    readPart around path = .error e ↔ PartRefused around path e := by
  refine Checked.bind_eq_error.trans ⟨fun h => ?_, fun h => ?_⟩
  · rcases h with unread | ⟨text, read, refused⟩
    · obtain ⟨why, missing, rfl⟩ := readText_eq_error.1 unread
      exact .unread missing
    · obtain ⟨unparsed, rfl⟩ := Part.parse_eq_error.1 refused
      exact .unparsed (readText_eq_ok.1 read) unparsed
  · cases h with
    | unread missing => exact .inl (readText_eq_error.2 ⟨_, missing, rfl⟩)
    | unparsed read refused =>
      exact .inr ⟨_, readText_eq_ok.2 read, Part.parse_eq_error.2 ⟨refused, rfl⟩⟩

theorem readGiven_eq_ok {given : Overrides} :
    readGiven around overrides = .ok given ↔ OverridesAt around overrides given := by
  cases overrides with
  | none =>
    rw [readGiven, Except.ok.injEq]
    exact eq_comm
  | some path =>
    refine Checked.bind_eq_ok.trans (exists_congr fun text => ?_)
    rw [readText_eq_ok]
    refine and_congr_right fun _ => ?_
    cases parseOverrides? around.rounding text with
    | none => simp [throw, throwThe, MonadExceptOf.throw]
    | some given => simp [pure, Except.pure]

theorem readGiven_eq_error {e : ValidationError} :
    readGiven around overrides = .error e ↔ OverridesRefused around overrides e := by
  cases overrides with
  | none =>
    refine ⟨fun h => ?_, fun h => ?_⟩
    · cases h
    · cases h
  | some path =>
    refine Checked.bind_eq_error.trans ⟨fun h => ?_, fun h => ?_⟩
    · rcases h with unread | ⟨text, read, refused⟩
      · obtain ⟨why, missing, rfl⟩ := readText_eq_error.1 unread
        exact .unread missing
      · split at refused
        · cases refused
        · next unparsed =>
          cases refused
          exact .unparsed (readText_eq_ok.1 read) unparsed
    · cases h with
      | unread missing => exact .inl (readText_eq_error.2 ⟨_, missing, rfl⟩)
      | unparsed read refused =>
        refine .inr ⟨_, readText_eq_ok.2 read, ?_⟩
        rw [refused]
        rfl

-- ============================================================== a whole run

theorem plan_eq_ok {made : BuildPlan} : plan around part overrides = .ok made
    ↔ Compiles around part overrides made := by
  rw [plan_eq]
  simp only [Checked.bind_eq_ok, Checked.mapError_eq_ok, readPart_eq_ok, readGiven_eq_ok]
  constructor
  · intro h
    obtain ⟨p, read, given, held, compiled⟩ := h
    exact ⟨p, given, read, held, compiled⟩
  · intro h
    obtain ⟨p, given, read, held, compiled⟩ := h
    exact ⟨p, read, given, held, compiled⟩

theorem plan_eq_error {e : CompileError} : plan around part overrides = .error e
    ↔ FirstFailure around part overrides e := by
  rw [plan_eq]
  simp only [Checked.bind_eq_error, Checked.mapError_eq_error, Checked.mapError_eq_ok,
    readPart_eq_ok, readPart_eq_error, readGiven_eq_ok, readGiven_eq_error]
  constructor
  · intro h
    rcases h with ⟨e, refused, rfl⟩ | ⟨p, read, ⟨e, refused, rfl⟩ | ⟨given, held, refused⟩⟩
    · exact .part refused
    · exact .overrides read refused
    · exact .compile read held refused
  · intro h
    cases h with
    | part refused => exact .inl ⟨_, refused, rfl⟩
    | overrides read refused => exact .inr ⟨_, read, .inl ⟨_, refused, rfl⟩⟩
    | compile read held refused => exact .inr ⟨_, read, .inr ⟨_, held, refused⟩⟩

/-- A run comes to a plan or to an error. -/
theorem compiles_or_fails (around : Surroundings) (part : String)
    (overrides : Option String) : (∃ made, Compiles around part overrides made)
      ∨ ∃ e, FirstFailure around part overrides e := by
  cases result : plan around part overrides with
  | ok made => exact .inl ⟨made, plan_eq_ok.1 result⟩
  | error e => exact .inr ⟨e, plan_eq_error.1 result⟩

theorem run_eq (part : String) (overrides : Option String) :
    run (part :: overrides.toList) around
      = match plan around part overrides with
        | .ok made => .planned made
        | .error e => .refused e.report := by
  cases overrides <;> rfl

theorem run_of_compiles {made : BuildPlan}
    (h : Compiles around part overrides made) :
    run (part :: overrides.toList) around = .planned made := by
  rw [run_eq, plan_eq_ok.2 h]

theorem run_of_fails {e : CompileError} (h : FirstFailure around part overrides e) :
    run (part :: overrides.toList) around = .refused e.report := by
  rw [run_eq, plan_eq_error.2 h]

theorem run_of_usage {args : List String} (h : args.length ≠ 1 ∧ args.length ≠ 2) :
    run args around = .usage := by
  match args with
  | [] => rfl
  | [_] => simp at h
  | [_, _] => simp at h
  | _ :: _ :: _ :: _ => rfl

/-- Nothing but the number of arguments makes a usage error. -/
theorem exitCode_eq_two {args : List String} :
    (run args around).exitCode = 2 ↔ args.length ≠ 1 ∧ args.length ≠ 2 := by
  have answered (part : String) (overrides : Option String) :
      (run (part :: overrides.toList) around).exitCode ≠ 2 := by
    rw [run_eq]
    cases plan around part overrides with
    | ok made => exact (by decide : (0 : UInt8) ≠ 2)
    | error e => exact (by decide : (1 : UInt8) ≠ 2)
  refine ⟨fun usage => ?_, fun h => by rw [run_of_usage h]; rfl⟩
  match args with
  | [] => simp
  | [part] => exact absurd usage (answered part none)
  | [part, path] => exact absurd usage (answered part (some path))
  | _ :: _ :: _ :: _ => simp

-- ================================================================= answers

/-- A plan is shown: as its text on lines, which denotes to every reader what its
compact text does, and from which the plan is read if its brackets are not too deep and
the reader gives the numbers in it back. If they are too deep, nothing is read. -/
structure Shows (answer : Outcome) (made : BuildPlan) : Prop where
  exitCode : answer.exitCode = 0
  output : answer.output = made.toJson.indented ++ "\n"
  denotes : ∀ r : Rounding, ∃ v, Json.parse? r answer.output = some v
    ∧ Json.parse? r made.toJson.compact = some v
  read : ∀ r : Rounding, made.toJson.depth ≤ Json.maxDepth →
    (∀ x ∈ made.toJson.numbers, r.Returns x) →
    (Json.parse? r answer.output).bind BuildPlan.ofJson? = some made
  refused : ∀ r : Rounding, Json.maxDepth < made.toJson.depth →
    (Json.parse? r answer.output).bind BuildPlan.ofJson? = none

/-- An error is reported: by its code and its message. -/
structure Reports (answer : Outcome) (e : CompileError) : Prop where
  exitCode : answer.exitCode = 1
  output : answer.output = e.report.toJson.indented ++ "\n"
  denotes : ∀ r : Rounding, Json.parse? r answer.output
    = some (.obj [("code", .str e.code), ("message", .str e.message)])

/-- What a reader makes of the text of a plan. -/
theorem parse?_planned {made : BuildPlan} (finite : made.IsFinite) (r : Rounding) :
    Json.parse? r (Outcome.planned made).output = some (made.toJson.reread r 0) :=
  Json.parse?_indented r (made.reads finite).textual

theorem shows_planned {made : BuildPlan} (finite : made.IsFinite) :
    Shows (.planned made) made := by
  refine ⟨rfl, rfl, fun r => ⟨_, parse?_planned finite r,
    Json.parse?_compact r (made.reads finite).textual⟩, fun r shallow returned => ?_,
    fun r deep => ?_⟩
  · rw [parse?_planned finite r, Option.bind_some,
      BuildPlan.ofJson?_reread finite shallow returned]
  · rw [parse?_planned finite r, Option.bind_some, BuildPlan.ofJson?_reread_of_lt finite deep]

theorem reports_refused (e : CompileError) : Reports (.refused e.report) e := by
  have textual : e.report.toJson.Textual := Json.textual_record (by simp [Json.Textual.str])
  exact ⟨rfl, rfl, fun r => Json.parse?_indented r textual⟩

theorem Compiles.isFinite {made : BuildPlan}
    (h : Compiles around part overrides made) : made.IsFinite := by
  obtain ⟨p, given, -, -, compiled⟩ := h
  exact Part.isFinite_of_compile compiled

theorem Compiles.shows {made : BuildPlan}
    (h : Compiles around part overrides made) :
    Shows (run (part :: overrides.toList) around) made := by
  rw [run_of_compiles h]
  exact shows_planned h.isFinite

theorem FirstFailure.reports {e : CompileError}
    (h : FirstFailure around part overrides e) :
    Reports (run (part :: overrides.toList) around) e := by
  rw [run_of_fails h]
  exact reports_refused e

/-- A run answers as the library does. Anything but one or two file names is answered
with a usage error, and with nothing on the output. Otherwise the answer is the plan,
if the part and the overrides are read and the part compiles in the environment, and
the error of the first stage that fails if not, in the words of the system and of the
reader of JSON where those have refused a file. -/
theorem run_answers (args : List String) (around : Surroundings) :
    ((run args around).exitCode = 2 ↔ args.length ≠ 1 ∧ args.length ≠ 2)
      ∧ ((run args around).exitCode = 2 → (run args around).output = "")
      ∧ ∀ part overrides, args = part :: Option.toList overrides →
        ((run args around).exitCode = 0
            ↔ ∃ made, Compiles around part overrides made)
          ∧ ((run args around).exitCode = 1
            ↔ ∃ e, FirstFailure around part overrides e)
          ∧ ((∃ made, Compiles around part overrides made)
            ∨ ∃ e, FirstFailure around part overrides e)
          ∧ (∀ made, Compiles around part overrides made →
            Shows (run args around) made)
          ∧ ∀ e, FirstFailure around part overrides e →
            Reports (run args around) e := by
  refine ⟨exitCode_eq_two, fun usage => ?_, ?_⟩
  · rw [run_of_usage (exitCode_eq_two.1 usage)]
    rfl
  rintro part overrides rfl
  have either := compiles_or_fails around part overrides
  refine ⟨⟨?_, ?_⟩, ⟨?_, ?_⟩, either, fun made h => h.shows, fun e h => h.reports⟩
  · intro zero
    rcases either with compiles | ⟨e, h⟩
    · exact compiles
    · rw [h.reports.exitCode] at zero
      cases zero
  · intro compiles
    obtain ⟨made, h⟩ := compiles
    exact h.shows.exitCode
  · intro one
    rcases either with ⟨made, h⟩ | fails
    · rw [h.shows.exitCode] at one
      cases one
    · exact fails
  · intro fails
    obtain ⟨e, h⟩ := fails
    exact h.reports.exitCode

/-- Around a program that finds one file and no variables. -/
def alone (r : Rounding) (name text : String) : Surroundings where
  files path := if path = name then .ok text else .error "No such file or directory (os error 2)"
  environment _ := none
  rounding := r
  noPart _ := "expected value at line 1 column 1"
  noOverrides _ := "expected value at line 1 column 1"

/-- With one file to read, what compiles is the part that is in it. -/
theorem alone_compiles {r : Rounding} (name : String) {document : Json} {p : Part}
    {made : BuildPlan} (reads : Json.Reads Part.ofJson? document p)
    (shallow : document.depth ≤ Json.maxDepth) (returned : ∀ x ∈ document.numbers, r.Returns x)
    (compiled : p.compile .empty .standard = .ok made) :
    Compiles (alone r name document.compact) name none made := by
  have found : (alone r name document.compact).files name = .ok document.compact := if_pos rfl
  refine ⟨p, .empty, ⟨_, found, ?_⟩, rfl, compiled⟩
  show (Json.parse? r document.compact).bind Part.ofJson? = some p
  rw [Json.parse?_compact r reads.textual,
    reads.textual.sound.reread_eq_self (by omega) returned, Option.bind_some, reads.read]

-- =============================================== a plan with a bracket too many

namespace rankedFrame

/-- A face that is picked as the nearest to a face, which is picked likewise, and so
on. -/
def face : ℕ → Selector
  | 0 => .query .face [] []
  | n + 1 => .query .face [] [.closestTo (face n)]

/-- The face as one may write it, without the lists that are empty. -/
def faceJson : ℕ → Json
  | 0 => Json.taggedRecord "selector.face" [("predicates", none), ("rank", none)]
  | n + 1 => Json.taggedRecord "selector.face" [("predicates", none),
      ("rank", some (.arr [Json.taggedRecord "rank.closestTo" [("target", some (faceJson n))]]))]

/-- A sketch with nothing in it. -/
def base : Feature := ⟨"base", [], [], .sketch, (none, [], ())⟩

/-- A frame on the face. -/
def frame (n : ℕ) : Feature := ⟨"frame", ["base"], [], .datumFrame, (face n, ())⟩

end rankedFrame

/-- A part with a frame on a face that so many other faces are needed to find. -/
def rankedFrame (n : ℕ) : Part where
  id := "ranked"
  units := none
  params := []
  features := [rankedFrame.base, rankedFrame.frame n]
  constraints := []
  assertions := []
  fti := none

namespace rankedFrame

/-- The part as one may write it. -/
def document (n : ℕ) : Json :=
  Json.record [("id", some (.str "ranked")), ("units", none), ("params", none),
    ("features", some (.arr [base.toJson,
      Json.record ((frame n).headFields ++ [("on", some (faceJson n))])])),
    ("constraints", none), ("assertions", none), ("fti", none)]

/-- A directory with the part in it. -/
def directory (n : ℕ) : Surroundings := alone .nearest "frame.json" (document n).compact

-- ---------------------------------------------------------------- its text

theorem textual_faceJson (n : ℕ) : (faceJson n).Textual := by
  induction n with
  | zero => exact Json.textual_taggedRecord (by simp)
  | succ n ih =>
    have rule : (Json.taggedRecord "rank.closestTo" [("target", some (faceJson n))]).Textual :=
      Json.textual_taggedRecord (by simp [ih])
    exact Json.textual_taggedRecord (by simp [Json.Textual.arr, rule])

theorem ofReadable?_faceJson (style : Json.TagStyle) (n : ℕ) :
    Selector.ofReadable? style (faceJson n) = some (face n) := by
  induction n generalizing style with
  | zero =>
    have tagged : Json.taggedFields? style Selector.forms Selector.Form.fields (faceJson 0)
        = some (.query .face, [none, none]) := Json.taggedFields?_taggedRecord rfl rfl (by decide)
    rw [Selector.ofReadable?]
    generalize Json.taggedFields? style Selector.forms Selector.Form.fields _ = q at tagged ⊢
    subst tagged
    rfl
  | succ n ih =>
    have rule : RankRule.ofReadable? .namedOrNumbered (Json.taggedRecord "rank.closestTo"
        [("target", some (faceJson n))]) = some (.closestTo (face n)) := by
      rw [RankRule.ofReadable?_taggedRecord .namedOrNumbered .closestTo rfl rfl (by decide)]
      exact congrArg (Option.map RankRule.closestTo) (ih _)
    have tagged : Json.taggedFields? style Selector.forms Selector.Form.fields (faceJson (n + 1))
        = some (.query .face, [none, some (.arr [Json.taggedRecord "rank.closestTo"
          [("target", some (faceJson n))]])]) :=
      Json.taggedFields?_taggedRecord rfl rfl (by decide)
    rw [Selector.ofReadable?]
    generalize Json.taggedFields? style Selector.forms Selector.Form.fields _ = q at tagged ⊢
    subst tagged
    simp [Json.defaulted, rulesOfReadable?, rule, face]

theorem isFinite_base : base.IsFinite := by
  refine ⟨fun _ _ => trivial, fun w hw => ?_, trivial⟩
  cases hw
  exact List.forall_mem_nil _

theorem reads_document (n : ℕ) : Json.Reads Part.ofJson? (document n) (rankedFrame n) := by
  have sketch : Json.Reads Feature.ofJson? base.toJson base := (base.reads isFinite_base).whole?
  have payload : Payload.ofFields? FeatureKind.datumFrame.slots [some (faceJson n)]
      = some (face n, ()) := by
    have slot : Payload.ofFields? FeatureKind.datumFrame.slots [some (faceJson n)]
        = (Selector.ofReadable? .namedOrNumbered (faceJson n)).bind fun s => some (s, ()) := rfl
    rw [slot, ofReadable?_faceJson]
    rfl
  have written : Json.Reads Feature.ofJson?
      (Json.record ((frame n).headFields ++ [("on", some (faceJson n))])) (frame n) :=
    Json.Reads.whole? ⟨(frame n).ofReadable?_record rfl payload,
      (frame n).textual_record (by simp [textual_faceJson])⟩
  refine .record (by decide) rfl ?_ ?_
  · simp [Json.required, Json.text?, Json.list?, Json.optional, Json.defaulted, sketch.read,
      written.read, rankedFrame]
  · simp [Json.Textual.str, Json.Textual.arr, sketch.textual, written.textual]

-- --------------------------------------------------------------- its depth

theorem depth_faceJson (n : ℕ) : (faceJson n).depth = 3 * n + 1 := by
  induction n with
  | zero => rfl
  | succ n ih =>
    have shape : faceJson (n + 1) = .obj [("kind", .str "selector.face"),
        ("rank", .arr [.obj [("kind", .str "rank.closestTo"), ("target", faceJson n)]])] := rfl
    rw [shape]
    simp only [Json.depth, Json.membersDepth, Json.itemsDepth, ih]
    omega

/-- What is written of a face has both lists, so it is one bracket deeper. -/
theorem depth_face (n : ℕ) : (face n).toJson.depth = 3 * n + 2 := by
  induction n with
  | zero => rfl
  | succ n ih =>
    have shape : (face (n + 1)).toJson = .obj [("kind", .str "selector.face"),
        ("predicates", .arr []), ("rank", .arr [.obj [("kind", .str "rank.closestTo"),
          ("target", (face n).toJson)]])] := rfl
    rw [shape]
    simp only [Json.depth, Json.membersDepth, Json.itemsDepth, ih]
    omega

theorem depth_document (n : ℕ) : (document n).depth = 3 * n + 4 := by
  have shape : document n = .obj [("id", .str "ranked"), ("features", .arr [base.toJson,
      .obj [("id", .str "frame"), ("deps", .arr [.str "base"]), ("kind", .str "datum.frame"),
        ("on", faceJson n)]])] := rfl
  have sketch : base.toJson.depth = 2 := rfl
  rw [shape]
  simp only [Json.depth, Json.membersDepth, Json.itemsDepth, depth_faceJson, sketch]
  omega

theorem depth_frame (n : ℕ) : (frame n).toJson.depth = 3 * n + 3 := by
  have shape : (frame n).toJson = .obj [("id", .str "frame"), ("deps", .arr [.str "base"]),
      ("kind", .str "datum.frame"), ("on", (face n).toJson)] := rfl
  rw [shape]
  simp only [Json.depth, Json.membersDepth, Json.itemsDepth, depth_face]
  omega

/-- Forty faces are as many as a plan may need. -/
theorem depth_le_maxDepth_iff {made : BuildPlan} {n : ℕ}
    (features : made.features = [base, frame n]) : made.toJson.depth ≤ Json.maxDepth ↔ n ≤ 40 := by
  have sketch : base.toJson.depth = 2 := rfl
  refine (BuildPlan.depth_le_iff (n := 126) (by decide)).trans ?_
  rw [features, List.forall_mem_cons, List.forall_mem_singleton, sketch, depth_frame]
  omega

-- ---------------------------------------------------------------- its plan

theorem normal_face (n : ℕ) : (face n).normal = face n := by
  induction n with
  | zero => rfl
  | succ n ih =>
    show Selector.query .face [] [.closestTo (face n).normal] = _
    rw [ih]
    rfl

theorem normal_eq (n : ℕ) : (rankedFrame n).normal .empty .standard
    = .ok ⟨"ranked", .mm, .empty .mm, [base, frame n], []⟩ := by
  have normal : (frame n).normal (.empty .mm) = .ok (frame n) := by
    show Except.ok (⟨"frame", ["base"], [], .datumFrame, ((face n).normal, ())⟩ : Feature) = _
    rw [normal_face]
    rfl
  have named : Text.isBlankText "frame" = false := rfl
  have features : Part.normalFeatures (.empty .mm) [base, frame n] = .ok [base, frame n] := by
    refine Checked.mapM_eq_ok.2 (.cons rfl (.cons ?_ .nil))
    show (if Text.isBlankText "frame" = true then _ else (frame n).normal (.empty .mm)) = _
    rw [named, normal]
    rfl
  exact Checked.bind_eq_ok.2 ⟨.empty .mm, rfl, Checked.bind_eq_ok.2 ⟨_, features, rfl⟩⟩

theorem references_frame (n : ℕ) :
    (frame n).references = [.dep "base", .free "on" (face n)] := by
  have pinned : (face n).anchors.filterMap (Anchor.reference? "on") = [] := by
    induction n with
    | zero => rfl
    | succ n ih =>
      show List.filterMap _ (.free (face (n + 1)) :: ((face n).anchors ++ [])) = []
      rw [List.append_nil]
      exact ih
  have free : (face n).anchors.findSome? Anchor.query? = some (face n) := by
    cases n <;> rfl
  show [Reference.dep "base"] ++ ((face n).anchors.filterMap (Anchor.reference? "on")
    ++ ((face n).anchors.findSome? Anchor.query?).toList.map (Reference.free "on") ++ []) = _
  rw [pinned, free]
  rfl

/-- The names in the part are the same however many faces it needs. -/
theorem collect_eq (n : ℕ) : Scope.collect [base, frame n]
    = .ok ⟨.ofList ["base", "frame"], .empty, .empty, .empty⟩ := by
  have same : Scope.collect [base, frame n] = Scope.collect [base, frame 0] := rfl
  rw [same]
  rfl

theorem build_eq (n : ℕ) :
    Graph.build [base, frame n] = .ok ⟨["base", "frame"], [⟨"base", "frame"⟩]⟩ := by
  have deps : Scope.dependencies ⟨.ofList ["base", "frame"], .empty, .empty, .empty⟩ (frame n)
      = .ok (.ofList ["base"]) := by
    unfold Scope.dependencies
    rw [references_frame]
    rfl
  refine Graph.build_eq_ok.2 ⟨_, [[], [⟨"base", "frame"⟩]], collect_eq n, ?_, rfl⟩
  exact Checked.mapM_eq_ok.2 (.cons rfl (.cons (Graph.edgesInto_eq_ok.2 ⟨_, deps, rfl⟩) .nil))

theorem exists_plan (n : ℕ) : ∃ made, (rankedFrame n).compile .empty .standard = .ok made
    ∧ made.features = [base, frame n] := by
  have ordered : (⟨["base", "frame"], [⟨"base", "frame"⟩]⟩ : Graph).order
      = .ok ["base", "frame"] := by decide +kernel
  exact ⟨_, Part.compile_of_order (normal_eq n) (build_eq n) ordered, rfl⟩

/-- The document may need one more. -/
theorem exists_compiles {n : ℕ} (few : n ≤ 41) :
    ∃ made, Compiles (directory n) "frame.json" none made ∧ made.features = [base, frame n] := by
  obtain ⟨made, compiled, features⟩ := exists_plan n
  have reads := reads_document n
  have shallow : (document n).depth ≤ Json.maxDepth := by
    rw [depth_document]
    unfold Json.maxDepth
    omega
  have returned := Rounding.nearest_returns_all reads.textual.sound
  exact ⟨made, alone_compiles "frame.json" reads shallow returned compiled, features⟩

/-- With forty faces the plan is read from the answer. Where there is no file, that is
the answer, and there is none without a file name. -/
theorem run_forty : (∃ made, Compiles (directory 40) "frame.json" none made
        ∧ (run ["frame.json"] (directory 40)).exitCode = 0
        ∧ (Json.parse? .nearest (run ["frame.json"] (directory 40)).output).bind
          BuildPlan.ofJson? = some made)
      ∧ Reports (run ["lost.json"] (directory 40)) (.validation
        (.unreadable "cannot read lost.json: No such file or directory (os error 2)"))
      ∧ (run [] (directory 40)).output = "" := by
  obtain ⟨made, compiles, features⟩ := exists_compiles (n := 40) (by decide)
  have message : "cannot read " ++ "lost.json" ++ ": " ++ "No such file or directory (os error 2)"
      = "cannot read lost.json: No such file or directory (os error 2)" := by decide
  have lost : FirstFailure (directory 40) "lost.json" none (.validation
      (.unreadable "cannot read lost.json: No such file or directory (os error 2)")) :=
    message ▸ .part (.unread rfl)
  have found := (run_answers ["frame.json"] (directory 40)).2.2 _ none rfl
  have missed := (run_answers ["lost.json"] (directory 40)).2.2 _ none rfl
  have shallow := (depth_le_maxDepth_iff features).2 (le_refl 40)
  have returned := Rounding.nearest_returns_all (made.reads compiles.isFinite).textual.sound
  refine ⟨⟨made, compiles, found.1.2 ⟨made, compiles⟩, ?_⟩, missed.2.2.2.2 _ lost,
    (run_answers [] (directory 40)).2.1 rfl⟩
  exact (found.2.2.2.1 made compiles).read .nearest shallow returned

/-- With one face more there still is an answer, but no reader reads anything from it. -/
theorem run_fortyOne : ∃ made, Compiles (directory 41) "frame.json" none made
    ∧ (run ["frame.json"] (directory 41)).exitCode = 0
    ∧ ∀ r, (Json.parse? r (run ["frame.json"] (directory 41)).output).bind
      BuildPlan.ofJson? = none := by
  obtain ⟨made, compiles, features⟩ := exists_compiles (n := 41) (by decide)
  have shows : Shows (run ["frame.json"] (directory 41)) made := compiles.shows
  refine ⟨made, compiles, shows.exitCode, fun r => shows.refused r (not_le.1 fun shallow => ?_)⟩
  exact absurd ((depth_le_maxDepth_iff features).1 shallow) (by decide)

end rankedFrame

-- ===================================================== a number read as another

/-- A plane at an offset. -/
def plane (offset : Scalar) : Feature := ⟨"plane", [], [], .datumPlane, (.posZ, offset, ())⟩

/-- A part with a plane that is 1.9 inches off, measured in inches. -/
def offsetPlane : Part where
  id := "offset"
  units := some .inch
  params := []
  features := [plane (.literal 1.9 (some "in"))]
  constraints := []
  assertions := []
  fti := none

namespace offsetPlane

/-- A directory with the part in it, for a reader that rounds twice. -/
def directory : Surroundings := alone .twice "offset.json" offsetPlane.toJson.compact

-- ---------------------------------------------------------------- its text

theorem isFinite_plane {s : Scalar} (finite : s.IsFinite) : (plane s).IsFinite := by
  refine ⟨fun _ _ => trivial, fun w hw => ?_, trivial⟩
  cases hw
  exact finite

theorem plane_inj {x y : Float} (same : plane (.value x) = plane (.value y)) : x = y := by
  obtain ⟨-, -, -, -, payload⟩ := Feature.mk.inj same
  exact Scalar.value.inj (Prod.mk.inj (Prod.mk.inj (eq_of_heq payload)).2).1

theorem reads_toJson : Json.Reads Part.ofJson? offsetPlane.toJson offsetPlane := by
  have finite : (1.9 : Float).isFinite = true := by decide
  have written : Json.Reads Feature.ofJson? (plane (.literal 1.9 (some "in"))).toJson _ :=
    (Feature.reads _ (isFinite_plane (s := .literal 1.9 (some "in")) finite)).whole?
  have features : Json.list? Feature.ofJson? (.arr [(plane (.literal 1.9 (some "in"))).toJson])
      = some [plane (.literal 1.9 (some "in"))] :=
    Json.list?_map (l := [_]) (List.forall_mem_singleton.2 written.read)
  refine .record (by decide) rfl ?_ ?_
  · show (Json.list? Feature.ofJson? (.arr [(plane (.literal 1.9 (some "in"))).toJson])).bind _ = _
    rw [features]
    rfl
  · simp [Json.Textual.str, Json.Textual.arr, written.textual, offsetPlane, Json.nonEmpty,
      UnitSystem.toJson]

-- ---------------------------------------------------------------- its plan

theorem normal_eq : offsetPlane.normal .empty .standard
    = .ok ⟨"offset", .inch, .empty .inch, [plane (.value 1.9000000000000001)], []⟩ := by
  have evaluated : (ParamTable.empty .inch).evaluate (.literal 1.9 (some "in")) .length
      "plane.offset" = .ok 1.9000000000000001 := by decide +kernel
  have place : "plane" ++ "." ++ "offset" = "plane.offset" := by decide
  have offset : (⟨.empty .inch, "plane"⟩ : Normalizer).length (.literal 1.9 (some "in")) "offset"
      = .ok (.value 1.9000000000000001) :=
    Checked.bind_eq_ok.2 ⟨_, (congrArg _ place).trans evaluated, rfl⟩
  have payload : Payload.mapM (Normalizer.slot ⟨.empty .inch, "plane"⟩) FeatureKind.datumPlane.slots
      (.posZ, .literal 1.9 (some "in"), ()) = .ok (.posZ, .value 1.9000000000000001, ()) :=
    Checked.bind_eq_ok.2 ⟨_, rfl, Checked.bind_eq_ok.2
      ⟨_, Checked.bind_eq_ok.2 ⟨_, offset, rfl⟩, rfl⟩⟩
  have features : Part.normalFeatures (.empty .inch) offsetPlane.features
      = .ok [plane (.value 1.9000000000000001)] :=
    Checked.mapM_eq_ok.2 (.cons (Checked.bind_eq_ok.2 ⟨_, payload, rfl⟩) .nil)
  exact Checked.bind_eq_ok.2 ⟨.empty .inch, rfl, Checked.bind_eq_ok.2 ⟨_, features, rfl⟩⟩

theorem exists_plan : ∃ made, offsetPlane.compile .empty .standard = .ok made
    ∧ made.toJson.depth ≤ Json.maxDepth
    ∧ made.features = [plane (.value 1.9000000000000001)] := by
  have built : Graph.build [plane (.value 1.9000000000000001)] = .ok ⟨["plane"], []⟩ := rfl
  have ordered : (⟨["plane"], []⟩ : Graph).order = .ok ["plane"] := by decide +kernel
  have depth : (plane (.value 1.9000000000000001)).toJson.depth = 1 := by decide +kernel
  refine ⟨_, Part.compile_of_order normal_eq built ordered, ?_, rfl⟩
  refine (BuildPlan.depth_le_iff (n := 126) (by decide)).2 (List.forall_mem_singleton.2 ?_)
  rw [depth]
  decide

-- ---------------------------------------------------------- its plan, read

/-- Nothing is lost of 1.9, whose digits are a number. -/
theorem twice_returns : Rounding.twice.Returns 1.9 :=
  Rounding.returns_iff.2 (Json.reread_eq_num (l := ⟨false, 19, -1, 1, false⟩) (by decide +kernel)
    (by decide) (by decide +kernel))

/-- The digits of the next number lie between two numbers, and are rounded to the one that
ends in zeros. -/
theorem twice_reread : Rounding.twice.reread 1.9000000000000001 = .num 1.9 :=
  Json.reread_eq_num (l := ⟨false, 19000000000000001, -16, 16, false⟩) (by decide +kernel)
    (by decide) (by decide +kernel)

theorem toJson_plane {x : Float} (finite : x.isFinite = true) : (plane (.value x)).toJson
    = .obj [("id", .str "plane"), ("kind", .str "datum.plane"), ("normal", .str "+Z"),
      ("offset", .num x)] := by
  rw [← show Json.ofFloat x = .num x from if_pos finite]
  rfl

/-- So the plane of the plan is read as another one. -/
theorem ofJson?_plane : Feature.ofJson?
      ((plane (.value 1.9000000000000001)).toJson.reread .twice 2) = some (plane (.value 1.9)) := by
  have finite : (1.9 : Float).isFinite = true := by decide
  have reads := (Feature.reads _ (isFinite_plane (s := .value 1.9) finite)).whole?
  have same : (plane (.value 1.9000000000000001)).toJson.reread .twice 2
      = (plane (.value 1.9)).toJson := by
    rw [toJson_plane (by decide), toJson_plane finite, Json.reread_obj _ (by decide)]
    simp only [List.map_cons, List.map_nil, Json.reread, twice_reread]
  rw [same]
  exact reads.read

/-- The part compiles, but what such a reader reads from the answer is not its plan. -/
theorem run_twice : ∃ made, Compiles directory "offset.json" none made
    ∧ made.toJson.depth ≤ Json.maxDepth
    ∧ (run ["offset.json"] directory).exitCode = 0
    ∧ (Json.parse? .twice (run ["offset.json"] directory).output).bind BuildPlan.ofJson?
      ≠ some made := by
  obtain ⟨made, compiled, shallow, features⟩ := exists_plan
  have returned : ∀ x ∈ offsetPlane.toJson.numbers, Rounding.twice.Returns x :=
    List.forall_mem_singleton.2 twice_returns
  have compiles : Compiles directory "offset.json" none made :=
    alone_compiles "offset.json" reads_toJson (by decide +kernel) returned compiled
  have answered : run ["offset.json"] directory = .planned made := run_of_compiles compiles
  refine ⟨made, compiles, shallow, compiles.shows.exitCode, fun read => ?_⟩
  rw [answered, parse?_planned compiles.isFinite, Option.bind_some] at read
  have same := BuildPlan.features_of_reread read
  rw [features, List.mapM_cons, ofJson?_plane] at same
  have other : (1.9 : Float) ≠ 1.9000000000000001 := by decide +kernel
  exact other (plane_inj (List.singleton_inj.1 (Option.some.inj same)))

end offsetPlane

/-- There are plans that are not read back from their answers: one that has a bracket
too many, to any reader, and one with a number in it that the reader rounds to another. -/
theorem not_all_read_back :
    (∃ made, Compiles (rankedFrame.directory 41) "frame.json" none made
      ∧ (run ["frame.json"] (rankedFrame.directory 41)).exitCode = 0
      ∧ ∀ r, (Json.parse? r (run ["frame.json"] (rankedFrame.directory 41)).output).bind
        BuildPlan.ofJson? = none)
    ∧ ∃ made, Compiles offsetPlane.directory "offset.json" none made
      ∧ made.toJson.depth ≤ Json.maxDepth
      ∧ (run ["offset.json"] offsetPlane.directory).exitCode = 0
      ∧ (Json.parse? .twice (run ["offset.json"] offsetPlane.directory).output).bind
        BuildPlan.ofJson? ≠ some made :=
  ⟨rankedFrame.run_fortyOne, offsetPlane.run_twice⟩

end PartPlan.CommandLine
