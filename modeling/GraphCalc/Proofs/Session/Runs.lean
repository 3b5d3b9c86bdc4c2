import GraphCalc.Proofs.Entering
import GraphCalc.Session

/-!
# GraphCalc.Proofs.Session.Runs

What holds of the engine after any sequence of actions.

`Engine.Follows log engine` relates an engine to what has been done in its session: it has a
simplified function with the simplified derivative of that, or neither, and it keeps a reason exactly
if the last text was refused and has not been forgotten since.

* `step_engine` — what one action does to the engine, which for most of them is nothing;
* `follows_step`, `follows_after` — one action keeps the relation, and so does a whole run;
* `Session.engine_after` — what this says of a new session, and of what is shown and drawn in it.
-/

namespace GraphCalc

/-! ## runs -/

/-- The action sets the function, or forgets it. -/
def Action.isSetting : Action → Bool
  | define .. | reset => true
  | _ => false

namespace Session

/-- The session after some actions. -/
def after (session : Session) : List Action → Session
  | [] => session
  | action :: actions => (session.step action).2.after actions

/-- Some actions, each with what came of it. -/
def log (session : Session) : List Action → List (Action × Result)
  | [] => []
  | action :: actions =>
    (action, (session.step action).1) :: (session.step action).2.log actions

/-- The last time the function was set or forgotten. -/
def lastSetting? (log : List (Action × Result)) : Option (Action × Result) :=
  (log.filter fun entry => entry.1.isSetting).getLast?

/-- The last text was refused, and the function has not been reset since. -/
def LastRefused (log : List (Action × Result)) : Prop :=
  ∃ format text, lastSetting? log = some (.define format text, .flag false)

end Session

/-! ## the engine -/

namespace Engine

variable (engine : Engine)

/-- There is a simplified function with the simplified derivative of it and no reason of a refusal,
or there is neither a function nor a derivative. -/
def Settled : Prop :=
  (engine.pick false = none ∧ engine.pick true = none) ∨
    ∃ f, f.simplify = f ∧ engine.pick false = some f ∧
      engine.pick true = some f.differentiate.simplify ∧ engine.lastError = none

/-- What a text defines is simplified, and so is its derivative. -/
theorem settled_define (format : Notation) (text : List Char) (limit : Nat) :
    (engine.define format text limit).Settled := by
  rw [define]
  cases hread : Definition.read format text limit with
  | error reason => exact .inl ⟨rfl, rfl⟩
  | ok d =>
      obtain ⟨e, -, he⟩ := Definition.read_eq_ok_iff.mp hread
      obtain ⟨-, -, rfl⟩ := Definition.ofExpr_eq_ok_iff.mp he
      exact .inr ⟨e.simplify, e.simplify_simplify, rfl, rfl, rfl⟩

/-- A reason is kept of a text that was refused, and of no other. -/
theorem lastError_define (format : Notation) (text : List Char) (limit : Nat) :
    (engine.define format text limit).lastError ≠ none ↔
      (engine.define format text limit).hasFunction = false := by
  rw [define]
  cases Definition.read format text limit <;> simp [adopt, hasFunction]

variable {engine}

/-- Function and derivative are there together. -/
theorem pick_eq_none_iff {derivative : Bool} :
    engine.pick derivative = none ↔ engine.hasFunction = false := by
  simp [pick, hasFunction]

theorem length_lines (format : Notation) :
    (engine.lines format).length = if engine.hasFunction then 2 else 0 := by
  rw [lines, hasFunction]
  cases engine.definition <;> rfl

/-- Without a function a curve is empty. -/
theorem curve_of_none {derivative : Bool} (h : engine.pick derivative = none)
    (projection : Projection) (request : RangeRequest) :
    engine.curve projection derivative request = .ok .empty := by
  rw [curve, h]

/-- With a function a curve is drawn over it, unless its step is refused. -/
theorem curve_of_some {derivative : Bool} {e : Expr Float} (h : engine.pick derivative = some e)
    (projection : Projection) (request : RangeRequest) :
    (∃ sweep, engine.curve projection derivative request = .ok (.traced projection e sweep)) ∨
      ∃ step, engine.curve projection derivative request = .error (.samplingStep step) := by
  rw [curve, h]
  dsimp only
  rw [Curve.make?, Sweep.make?]
  split
  · exact .inr ⟨_, rfl⟩
  · exact .inl ⟨_, rfl⟩

/-- The engine is settled, and keeps a reason exactly if the last text was refused. -/
structure Follows (log : List (Action × Result)) (engine : Engine) : Prop where
  settled : engine.Settled
  lastError : engine.lastError ≠ none ↔ Session.LastRefused log

end Engine

/-! ## steps -/

namespace Session

theorem withCurve_engine (session : Session) (name : String)
    (act : Curve Float → Result × Curve Float) :
    (session.withCurve name act).2.engine = session.engine := by
  unfold withCurve
  split <;> rfl

/-- What an action does to the engine. -/
theorem step_engine (session : Session) (action : Action) :
    (session.step action).2.engine =
      match action with
      | .define format text => session.engine.define format text
      | .reset => session.engine.reset
      | .change setting =>
        { session.engine with settings := session.engine.settings.set setting }
      | _ => session.engine := by
  cases action with
  | define | reset | change | has | lines | figure => rfl
  | area request =>
      simp only [step]
      split <;> rfl
  | make name projection derivative request =>
      simp only [step]
      split <;> rfl
  | hasNext | startsSegment | draw | rewind | drain => exact withCurve_engine _ _ _

/-- Whatever neither sets nor forgets the function leaves it, its derivative and the reason of a
refusal as they are. -/
theorem step_unchanged (session : Session) {action : Action} (h : action.isSetting = false) :
    (∀ derivative, (session.step action).2.engine.pick derivative =
      session.engine.pick derivative) ∧
      (session.step action).2.engine.lastError = session.engine.lastError := by
  rw [step_engine]
  cases action with
  | define | reset => contradiction
  | _ => exact ⟨fun _ => rfl, rfl⟩

/-! ## logs -/

/-- An action that sets or forgets the function is the last one that does. -/
theorem lastSetting?_append_setting (log : List (Action × Result)) {entry : Action × Result}
    (h : entry.1.isSetting = true) : lastSetting? (log ++ [entry]) = some entry := by
  rw [lastSetting?, List.filter_append, List.filter_cons_of_pos (by simpa using h),
    List.filter_nil, List.getLast?_concat]

/-- Any other action is not. -/
theorem lastSetting?_append_other (log : List (Action × Result)) {entry : Action × Result}
    (h : entry.1.isSetting = false) : lastSetting? (log ++ [entry]) = lastSetting? log := by
  rw [lastSetting?, List.filter_append, List.filter_cons_of_neg (by simp [h]), List.filter_nil,
    List.append_nil, lastSetting?]

/-- One action keeps the relation between the engine and the log. -/
theorem follows_step {session : Session} {entries : List (Action × Result)}
    (h : session.engine.Follows entries) (action : Action) :
    (session.step action).2.engine.Follows (entries ++ [(action, (session.step action).1)]) := by
  cases hsetting : action.isSetting with
  | false =>
      obtain ⟨hpick, herror⟩ := session.step_unchanged hsetting
      have hlast : lastSetting? (entries ++ [(action, (session.step action).1)]) =
          lastSetting? entries := lastSetting?_append_other entries hsetting
      refine ⟨?_, ?_⟩
      · rw [Engine.Settled, hpick, hpick, herror]
        exact h.settled
      · rw [herror, LastRefused, hlast]
        exact h.lastError
  | true =>
      have hlast : lastSetting? (entries ++ [(action, (session.step action).1)]) =
          some (action, (session.step action).1) := lastSetting?_append_setting entries hsetting
      cases action with
      | define format text =>
          refine ⟨session.engine.settled_define format text nestingLimit, ?_⟩
          rw [LastRefused, hlast]
          refine (session.engine.lastError_define format text nestingLimit).trans ?_
          simp [step]
      | reset =>
          refine ⟨.inl ⟨rfl, rfl⟩, ?_⟩
          rw [LastRefused, hlast]
          simp [step, Engine.reset]
      | _ => contradiction

/-- A whole run keeps the relation. -/
theorem follows_after {session : Session} {entries : List (Action × Result)}
    (h : session.engine.Follows entries) (actions : List Action) :
    (session.after actions).engine.Follows (entries ++ session.log actions) := by
  induction actions generalizing session entries with
  | nil =>
      rw [log, List.append_nil]
      exact h
  | cons action actions ih =>
      have hrest := ih (follows_step h action)
      rwa [List.append_assoc, List.singleton_append] at hrest

/-- A new engine has no function, and nothing has been done in its session. -/
theorem follows_new (settings : Settings) : (new settings).engine.Follows [] :=
  ⟨.inl ⟨rfl, rfl⟩, by simp [new, Engine.new, LastRefused, lastSetting?]⟩

/-- After any actions in a new session, whatever came of them:

* there is a simplified function with the simplified derivative of it and no reason of a refusal, or
  there is neither function nor derivative;
* there is a reason exactly if the last time the function was set or forgotten, a text was refused;
* nothing is shown without a function, and two lines with one;
* a curve is empty without a function, and with one it is drawn over the function or its derivative,
  unless its step is refused;
* nothing but setting or forgetting the function changes it, its derivative or the reason. -/
theorem engine_after (settings : Settings) (actions : List Action) :
    let session := (new settings).after actions
    session.engine.Settled ∧
      (session.engine.lastError ≠ none ↔ LastRefused ((new settings).log actions)) ∧
      (∀ format, ∃ lines, (session.step (.lines format)).1 = .texts lines ∧
        lines.length = if session.engine.hasFunction then 2 else 0) ∧
      (∀ name projection derivative request,
        match session.engine.pick derivative with
        | none => session.engine.hasFunction = false ∧
            (session.step (.make name projection derivative request)).1 = .curve .empty
        | some e => session.engine.hasFunction = true ∧
            ((∃ sweep, (session.step (.make name projection derivative request)).1 =
                .curve (.traced projection e sweep)) ∨
              ∃ h, (session.step (.make name projection derivative request)).1 =
                .failed (.samplingStep h))) ∧
      ∀ action : Action, action.isSetting = false →
        (∀ derivative, (session.step action).2.engine.pick derivative =
          session.engine.pick derivative) ∧
          (session.step action).2.engine.lastError = session.engine.lastError := by
  intro session
  have hfollows := follows_after (follows_new settings) actions
  refine ⟨hfollows.settled, hfollows.lastError, fun format => ⟨_, rfl, Engine.length_lines format⟩,
    fun name projection derivative request => ?_, fun action => session.step_unchanged⟩
  split
  · next hnone =>
    refine ⟨Engine.pick_eq_none_iff.mp hnone, ?_⟩
    simp only [step, Engine.curve_of_none hnone]
  · next e hsome =>
    have hfunction : session.engine.hasFunction = true := by
      rw [← Bool.not_eq_false]
      intro hnone
      rw [Engine.pick_eq_none_iff.mpr hnone] at hsome
      contradiction
    refine ⟨hfunction, ?_⟩
    rcases Engine.curve_of_some hsome projection request with ⟨sweep, hcurve⟩ | ⟨h, hcurve⟩
    · exact .inl ⟨sweep, by simp only [step, hcurve]⟩
    · exact .inr ⟨h, by simp only [step, hcurve]⟩

end Session

end GraphCalc
