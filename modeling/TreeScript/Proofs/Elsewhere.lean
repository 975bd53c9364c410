import TreeScript.Proofs.PausedSessions

/-!
# What a request leaves alone

An interpreter keeps its options, its host and its root scope whatever it is
asked; only its world changes.  And a request that names one run, or none,
leaves every other run as it was, with what it waits for.
-/

namespace TreeScript

namespace Interpreter

variable {interpreter after : Interpreter} {fuel : Nat} {run : Run}

/-- Polling changes nothing but the world. -/
theorem eq_of_poll {polled : Polled}
    (answered : interpreter.poll fuel run = some (polled, after)) :
    after = { interpreter with world := after.world } := by
  unfold poll at answered
  split at answered
  · cases answered
    rfl
  · split at answered
    · split at answered <;> cases answered <;> rfl
    · cases answered
      rfl

theorem eq_of_complete {polls : Nat} {verdict : Verdict}
    (completed : complete fuel polls interpreter run = some (verdict, after)) :
    after = { interpreter with world := after.world } := by
  induction polls generalizing interpreter run with
  | zero => cases completed
  | succ polls inductive_step =>
      rw [complete] at completed
      split at completed
      · rename_i polled
        cases completed
        exact eq_of_poll polled
      · rename_i rest between polled
        split at completed
        · rw [inductive_step completed, eq_of_poll polled]
        · cases completed
      · cases completed

end Interpreter

/-- Nothing need be kept. -/
theorem World.upkeep_any : World.Upkeep fun _ _ => True where
  refl _ := trivial
  trans _ _ := trivial
  readName _ _ _ _ := trivial
  assign _ _ _ _ _ := trivial
  declare _ _ _ _ _ := trivial
  build _ _ := trivial
  transition _ _ := trivial
  subscribe _ _ _ _ := trivial
  unsubscribe _ _ _ _ := trivial

/-- The run that a request names. -/
def Request.named : Request → Option String
  | .start id _ => some id
  | .startCall id _ _ => some id
  | .poll id _ => some id
  | .drop id => some id
  | _ => none

namespace Session

/-- A session after a request that names a run, or none. -/
structure Leads (named : Option String) (session after : Session) : Prop where
  interpreter : after.interpreter = { session.interpreter with world := after.world }
  others : ∀ id, named ≠ some id → after.runs.lookup id = session.runs.lookup id

variable {named : Option String} {session between after : Session}

theorem Leads.refl (named : Option String) (session : Session) : Leads named session session :=
  ⟨rfl, fun _ _ => rfl⟩

theorem Leads.trans (first : Leads named session between) (second : Leads named between after) :
    Leads named session after where
  interpreter := by rw [second.interpreter, first.interpreter]
  others id apart := (second.others id apart).trans (first.others id apart)

theorem leads_answerVerdict {save : Option String} {verdict : Verdict} {answer : Answer}
    (answered : some (session.answerVerdict save verdict) = some (answer, after)) :
    Leads named session after := by
  obtain ⟨saved, same⟩ := answerVerdict_eq session save verdict
  obtain rfl := (congrArg Prod.snd (Option.some.inj answered)).symm.trans same
  exact ⟨rfl, fun _ _ => rfl⟩

theorem leads_remember (session : Session) (id : String) (run : Run) :
    Leads (some id) session (session.remember id run) :=
  ⟨rfl, fun _ apart => lookup_remember_ne session (fun same => apart (congrArg some same.symm)) run⟩

theorem leads_forget (session : Session) (id : String) :
    Leads (some id) session (session.forget id) :=
  ⟨rfl, fun _ apart => lookup_forget_ne session fun same => apart (congrArg some same.symm)⟩

/-- Looking after a session leaves every run as it was. -/
theorem Tended.leads {kept : World → World → Prop} (tended : Tended kept session after) :
    Leads named session after :=
  ⟨tended.interpreter, fun _ _ => congrArg (List.lookup _) tended.runs⟩

theorem leads_complete {fuel : Nat} {save : Option String} {run : Run} {answer : Answer}
    (answered : session.complete fuel save run = some (answer, after)) :
    Leads named session after := by
  unfold complete at answered
  split at answered
  · rename_i verdict interpreter completed
    have polled : Leads named session { session with interpreter := interpreter } :=
      ⟨Interpreter.eq_of_complete completed, fun _ _ => rfl⟩
    exact polled.trans (leads_answerVerdict answered)
  · cases answered

/-- An edit that the host makes, and the answer with how it ends. -/
theorem leads_edit {α : Type} {edit : Edit α} {save : Option String} {answer : Answer}
    (verdict : Except Error α → Verdict)
    (answered : some ((session.edit edit).2.answerVerdict save (verdict (session.edit edit).1)) =
      some (answer, after)) :
    Leads named session after := by
  have edited : Leads named session (session.edit edit).2 := ⟨rfl, fun _ _ => rfl⟩
  exact edited.trans (leads_answerVerdict answered)

theorem leads_answer {fuel : Nat} {request : Request} {answer : Answer}
    (answered : session.answer fuel request = some (answer, after)) :
    Leads request.named session after := by
  cases request with
  | execute mode script save =>
      cases script with
      | none => cases mode <;> cases answered <;> exact .refl _ _
      | some script => cases mode <;> exact leads_complete answered
  | call style callee arguments save =>
      have built := tended_buildAll World.upkeep_any session (callee :: arguments)
      unfold Session.answer at answered
      dsimp only at answered
      split at answered
      · rename_i given
        rw [given] at built
        exact built.leads.trans (leads_complete answered)
      · rename_i refused
        rw [refused] at built
        cases answered
        exact built.leads
  | start id script =>
      cases script with
      | none =>
          cases answered
          exact .refl _ _
      | some script =>
          cases answered
          exact leads_remember session id _
  | startCall id callee arguments =>
      have built := tended_buildAll World.upkeep_any session (callee :: arguments)
      unfold Session.answer at answered
      dsimp only at answered
      split at answered
      · rename_i given
        rw [given] at built
        cases answered
        exact built.leads.trans (leads_remember _ id _)
      · rename_i refused
        rw [refused] at built
        cases answered
        exact built.leads
  | poll id save =>
      unfold Session.answer at answered
      dsimp only at answered
      split at answered
      · cases answered
        exact .refl _ _
      · rename_i run found
        have polledBy {polled : Polled} {interpreter : Interpreter}
            (polled : session.interpreter.poll fuel run = some (polled, interpreter)) :
            Leads (some id) session { session with interpreter := interpreter } :=
          ⟨Interpreter.eq_of_poll polled, fun _ _ => rfl⟩
        split at answered
        · rename_i polled
          cases answered
          exact (polledBy polled).trans (leads_remember _ id _)
        · rename_i polled
          exact ((polledBy polled).trans (leads_forget _ id)).trans (leads_answerVerdict answered)
        · cases answered
  | drop id =>
      cases answered
      exact leads_forget session id
  | transition | subscribe | unsubscribe =>
      cases answered
      exact ⟨rfl, fun _ _ => rfl⟩
  | get name save => exact leads_edit (Except.map some) answered
  | assign name value | add name value isMutable =>
      have built := tended_buildOne World.upkeep_any session value
      unfold Session.answer at answered
      dsimp only at answered
      split at answered
      · rename_i given
        rw [given] at built
        exact built.leads.trans (leads_edit silentVerdict answered)
      · rename_i refused
        rw [refused] at built
        cases answered
        exact built.leads
  | state | existence | attributes | bindings =>
      cases answered
      exact .refl _ _

/-- Whatever a session is asked, only the world of its interpreter changes. -/
theorem Reaches.interpreter (reached : session.Reaches after) :
    after.interpreter = { session.interpreter with world := after.world } := by
  induction reached with
  | start => rfl
  | answer _ answered inductive_step => rw [(leads_answer answered).interpreter, inductive_step]
  | @takeEvents between _ inductive_step =>
      let world := between.takeEvents.2.world
      exact congrArg (fun interpreter => Interpreter.mk interpreter.options interpreter.host
        interpreter.root world) inductive_step

/-- The sessions that are reached by requests none of which names a certain run. -/
inductive ReachesBeside (id : String) (session : Session) : Session → Prop where
  | start : ReachesBeside id session session
  | answer {between after : Session} {fuel : Nat} {request : Request} {answer : Answer}
      (reached : ReachesBeside id session between)
      (beside : request.named ≠ some id)
      (answered : between.answer fuel request = some (answer, after)) :
      ReachesBeside id session after
  | takeEvents {between : Session}
      (reached : ReachesBeside id session between) :
      ReachesBeside id session between.takeEvents.2

theorem ReachesBeside.reaches {id : String} (reached : session.ReachesBeside id after) :
    session.Reaches after := by
  induction reached with
  | start => exact .start
  | answer _ _ answered inductive_step => exact .answer inductive_step answered
  | takeEvents _ inductive_step => exact .takeEvents inductive_step

/-- A run that no request names stays as it is. -/
theorem ReachesBeside.lookup {id : String} (reached : session.ReachesBeside id after) :
    after.runs.lookup id = session.runs.lookup id := by
  induction reached with
  | start => rfl
  | answer _ beside answered inductive_step =>
      exact ((leads_answer answered).others id beside).trans inductive_step
  | takeEvents _ inductive_step => exact inductive_step

end Session

end TreeScript
