import EntityViews.Source.Script

/-!
This module contains the laws of scopes. The depth of a buffer is always that of the scopes that are
open on it, so closing a scope never goes below the depth that the buffer was taken up at. A script
that closes exactly the scopes it opens can be run anywhere without touching the scopes around it.
-/

namespace EntityViews

def Scope.isEnabled : Scope → Bool
  | .indent enabled => enabled
  | .block => true

namespace Buffer

@[simp]
theorem append_depth (buffer : Buffer) (text : String) :
    (buffer.append text).depth = buffer.depth := by
  unfold append
  split
  . rfl
  . split <;> rfl

@[simp]
theorem append_indent (buffer : Buffer) (text : String) :
    (buffer.append text).indent = buffer.indent := by
  unfold append
  split
  . rfl
  . split <;> rfl

@[simp]
theorem newLine_depth (buffer : Buffer) : buffer.newLine.depth = buffer.depth := by
  rfl

@[simp]
theorem newLine_indent (buffer : Buffer) : buffer.newLine.indent = buffer.indent := by
  rfl

@[simp]
theorem enter_depth (buffer : Buffer) (scope : Scope) :
    (buffer.enter scope).depth = buffer.depth + if scope.isEnabled then 1 else 0 := by
  cases scope with
  | indent enabled => cases enabled <;> rfl
  | block => simp [enter, Scope.isEnabled]

@[simp]
theorem leave_depth (buffer : Buffer) (scope : Scope) :
    (buffer.leave scope).depth = buffer.depth - if scope.isEnabled then 1 else 0 := by
  cases scope with
  | indent enabled => cases enabled <;> rfl
  | block => simp [leave, Scope.isEnabled]

@[simp]
theorem enter_indent (buffer : Buffer) (scope : Scope) :
    (buffer.enter scope).indent = buffer.indent := by
  cases scope with
  | indent enabled => cases enabled <;> rfl
  | block => simp [enter]

@[simp]
theorem leave_indent (buffer : Buffer) (scope : Scope) :
    (buffer.leave scope).indent = buffer.indent := by
  cases scope with
  | indent enabled => cases enabled <;> rfl
  | block => simp [leave]

end Buffer

namespace Session

theorem run_cons (session : Session) (step : Step) (script : Script) :
    session.run (step :: script) = (session.step step).run script := by
  rfl

/--
The buffer is as deep as the open scopes make it when it was taken up at depth `base`.
-/
def HasBase (session : Session) (base : Nat) : Prop :=
  session.buffer.depth = base + session.scopes.countP Scope.isEnabled

theorem hasBase_of_nil (buffer : Buffer) : (Session.mk buffer []).HasBase buffer.depth := by
  simp [HasBase]

theorem HasBase.step {session : Session} {base : Nat} (h : session.HasBase base) (step : Step) :
    (session.step step).HasBase base := by
  unfold HasBase at *
  cases step with
  | append text => simpa [Session.step] using h
  | newLine => simpa [Session.step] using h
  | clear => simpa [Session.step, Buffer.clear] using h
  | enter scope =>
    simp only [Session.step, Buffer.enter_depth, List.countP_cons]
    omega
  | leave =>
    rcases session with ⟨buffer, scopes⟩
    cases scopes with
    | nil => exact h
    | cons scope scopes =>
      -- the scope that is closed is counted in `h`, so the subtraction is not cut off
      simp only [List.countP_cons] at h
      simp only [Session.step, Buffer.leave_depth]
      omega

theorem HasBase.run {session : Session} {base : Nat} (h : session.HasBase base) (script : Script) :
    (session.run script).HasBase base := by
  induction script generalizing session with
  | nil => exact h
  | cons step script ih => exact ih (h.step step)

theorem HasBase.finish_depth {session : Session} {base : Nat} (h : session.HasBase base) :
    session.finish.depth = base := by
  rcases session with ⟨buffer, scopes⟩
  induction scopes generalizing buffer with
  | nil => exact h
  | cons scope scopes ih =>
    have hleave : (Session.mk (buffer.leave scope) scopes).HasBase base := h.step .leave
    exact ih (buffer.leave scope) hleave

@[simp]
theorem step_indent (session : Session) (step : Step) :
    (session.step step).buffer.indent = session.buffer.indent := by
  cases step with
  | append text => exact session.buffer.append_indent text
  | newLine => rfl
  | clear => rfl
  | enter scope => exact session.buffer.enter_indent scope
  | leave =>
    rcases session with ⟨buffer, scopes⟩
    cases scopes with
    | nil => rfl
    | cons scope scopes => exact buffer.leave_indent scope

@[simp]
theorem run_indent (session : Session) (script : Script) :
    (session.run script).buffer.indent = session.buffer.indent := by
  induction script generalizing session with
  | nil => rfl
  | cons step script ih =>
    rw [run_cons, ih, step_indent]

@[simp]
theorem finish_indent (session : Session) : session.finish.indent = session.buffer.indent := by
  rcases session with ⟨buffer, scopes⟩
  induction scopes generalizing buffer with
  | nil => rfl
  | cons scope scopes ih => exact (ih (buffer.leave scope)).trans (buffer.leave_indent scope)

end Session

namespace Buffer

@[simp]
theorem run_depth (buffer : Buffer) (script : Script) :
    (buffer.run script).depth = buffer.depth := by
  exact ((Session.hasBase_of_nil buffer).run script).finish_depth

@[simp]
theorem run_indent (buffer : Buffer) (script : Script) :
    (buffer.run script).indent = buffer.indent := by
  unfold run
  rw [Session.finish_indent, Session.run_indent]

end Buffer

namespace Script

/--
Scripts that close exactly the scopes and parentheses they open and otherwise consist of allowed
steps. A parenthesis may be opened at the end of an allowed text.
-/
inductive Nested (allowed : Step → Prop) : Script → Prop where
  | nil : Nested allowed []
  | append {text : String} (h : allowed (.append text)) : Nested allowed [.append text]
  | newLine (h : allowed .newLine) : Nested allowed [.newLine]
  | clear (h : allowed .clear) : Nested allowed [.clear]
  | scope {body : Script} (scope : Scope) (h : Nested allowed body) :
      Nested allowed ([.enter scope] ++ body ++ [.leave])
  | parentheses {front : String} {body : Script} (hfront : allowed (.append front))
      (h : Nested allowed body) :
      Nested allowed ([.append (front ++ "(")] ++ body ++ [.append ")"])
  | join {first second : Script} (hfirst : Nested allowed first) (hsecond : Nested allowed second) :
      Nested allowed (first ++ second)

end Script

namespace Session

end Session

namespace Script.Nested

variable {allowed : Step → Prop} {script : Script}

theorem exists_run_eq (h : script.Nested allowed) (buffer : Buffer) :
    ∃ after, ∀ scopes, (Session.mk buffer scopes).run script = ⟨after, scopes⟩ := by
  induction h generalizing buffer with
  | nil => exact ⟨buffer, fun _ => rfl⟩
  | @append text h => exact ⟨buffer.append text, fun _ => rfl⟩
  | newLine h => exact ⟨buffer.newLine, fun _ => rfl⟩
  | clear h => exact ⟨buffer.clear, fun _ => rfl⟩
  | scope scope hbody ih =>
    -- the body is run on top of the scope, which is innermost again when it is to be closed
    have ⟨after, hafter⟩ := ih (buffer.enter scope)
    refine ⟨after.leave scope, fun scopes => ?_⟩
    rw [Session.run_append, Session.run_append]
    change (((Session.mk (buffer.enter scope) (scope :: scopes)).run _).run [.leave]) = _
    rw [hafter]
    rfl
  | @parentheses front body hfront hbody ih =>
    have ⟨after, hafter⟩ := ih (buffer.append (front ++ "("))
    refine ⟨after.append ")", fun scopes => ?_⟩
    rw [Session.run_append, Session.run_append]
    change (((Session.mk (buffer.append (front ++ "(")) scopes).run body).run [.append ")"]) = _
    rw [hafter]
    rfl
  | join hfirst hsecond ihfirst ihsecond =>
    have ⟨between, hbetween⟩ := ihfirst buffer
    have ⟨after, hafter⟩ := ihsecond between
    refine ⟨after, fun scopes => ?_⟩
    rw [Session.run_append, hbetween, hafter]

theorem run_eq (h : script.Nested allowed) (session : Session) :
    session.run script = ⟨session.buffer.run script, session.scopes⟩ := by
  have ⟨after, hafter⟩ := h.exists_run_eq session.buffer
  have hrun : session.buffer.run script = after := by
    unfold Buffer.run
    rw [hafter]
    rfl
  rw [hrun]
  exact hafter session.scopes

theorem run_append {first : Script} (h : first.Nested allowed) (buffer : Buffer)
    (second : Script) : buffer.run (first ++ second) = (buffer.run first).run second := by
  change ((Session.mk buffer []).run (first ++ second)).finish = _
  rw [Session.run_append, h.run_eq]
  rfl

theorem run_scope {body : Script} (h : body.Nested allowed) (buffer : Buffer) (scope : Scope) :
    buffer.run ([.enter scope] ++ body ++ [.leave])
      =
    ((buffer.enter scope).run body).leave scope := by
  change ((Session.mk buffer []).run _).finish = _
  rw [Session.run_append, Session.run_append]
  change (((Session.mk (buffer.enter scope) [scope]).run body).run [.leave]).finish = _
  rw [h.run_eq]
  rfl

theorem run_between {body : Script} (h : body.Nested allowed) (buffer : Buffer)
    (first last : String) :
    buffer.run ([.append first] ++ body ++ [.append last])
      =
    ((buffer.append first).run body).append last := by
  change ((Session.mk buffer []).run _).finish = _
  rw [Session.run_append, Session.run_append]
  change (((Session.mk (buffer.append first) []).run body).run [.append last]).finish = _
  rw [h.run_eq]
  rfl

theorem forall_mem (h : script.Nested allowed) (henter : ∀ scope, allowed (.enter scope))
    (hleave : allowed .leave)
    (hopening : ∀ {front}, allowed (.append front) → allowed (.append (front ++ "(")))
    (hclosing : allowed (.append ")")) : ∀ step ∈ script, allowed step := by
  induction h with
  | nil => simp
  | append h => simpa using h
  | newLine h => simpa using h
  | clear h => simpa using h
  | scope scope hbody ih =>
    simp only [List.forall_mem_append, List.forall_mem_singleton]
    exact ⟨⟨henter scope, ih⟩, hleave⟩
  | parentheses hfront hbody ih =>
    simp only [List.forall_mem_append, List.forall_mem_singleton]
    exact ⟨⟨hopening hfront, ih⟩, hclosing⟩
  | join hfirst hsecond ihfirst ihsecond => exact List.forall_mem_append.mpr ⟨ihfirst, ihsecond⟩

end Script.Nested

end EntityViews
