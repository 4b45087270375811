import AiSsh.Daemon

/-!
What a step of the daemon makes of the sessions in its map. A session enters the map with
`create` and leaves it with the process.
-/

namespace AiSsh

open Library

namespace DaemonStep

/-- `create` starts from the record it builds. -/
def buildsRecord : DaemonStep → Bool
  | .create info _ now => info ==
      .created info.id info.targetId info.targetName info.purpose info.clientName now
  | _ => true

end DaemonStep

namespace Daemon

/-- The sessions after a step: as they were, none, one more, or one of them changed. -/
inductive Turns (d d' : Daemon) : DaemonStep → Prop
  | kept {move : DaemonStep} (hsessions : d'.sessions = d.sessions) : Turns d d' move
  | crashed (hsessions : d'.sessions = []) : Turns d d' .crash
  | created {info : SessionInfo} {attempts : Nat} {now : Now} (hnew : info.id ∉ d.used)
      (hused : info.id ∈ d'.used)
      (hsessions : d'.sessions = d.sessions ++ [⟨.created d.storage info attempts now, []⟩]) :
      Turns d d' (.create info attempts now)
  | called {k : Nat} {call : Call} {s s' : Cancellable} (hs : d.sessions[k]? = some s)
      (hsessions : d'.sessions = d.sessions.set k s')
      (hcall : (d.within s).session.step (.call call) = some s'.session) :
      Turns d d' (.session k (.session (.call call)))
  | touched {move : DaemonStep} {k : Nat} {s s' : Cancellable} (hs : d.sessions[k]? = some s)
      (hsessions : d'.sessions = d.sessions.set k s')
      (hinfo : s'.session.shared.runtime.info = s.session.shared.runtime.info)
      (hslot : s'.session.shared.runtime.connection = s.session.shared.runtime.connection)
      (hops : s'.session.ops = s.session.ops) : Turns d d' move
  | advanced {move : DaemonStep} {k i : Nat} {answer : Answer} {now : Now} {s s' : Cancellable}
      {op : Op} (hs : d.sessions[k]? = some s) (hop : s.session.ops[i]? = some op)
      (hsessions : d'.sessions = d.sessions.set k s')
      (hmove : move = .session k (.session (.advance i answer now)) ∨ op.isRunExec = true)
      (hstep : (d.within s).session.step (.advance i answer now) = some s'.session) :
      Turns d d' move

variable {d d' : Daemon}

theorem turns_of_step {move : DaemonStep} (h : d.step move = some d') : Turns d d' move := by
  cases move with
  | start _ | interruptUnfinished _ | cleanup _ _ =>
      simp only [step] at h
      split at h
      · cases h
        exact .kept rfl
      · cases h
  | crash =>
      cases h
      exact .crashed rfl
  | create info attempts now =>
      simp only [step] at h
      split at h
      · rename_i hserving
        cases h
        exact .created hserving.2 List.mem_cons_self rfl
      · cases h
  | session k move =>
      simp only [step] at h
      split at h
      · rename_i s hs
        obtain ⟨s', hmoved, rfl⟩ := Option.map_eq_some_iff.mp h
        cases move with
        | session move =>
            obtain ⟨session, hsession, rfl⟩ := Option.map_eq_some_iff.mp hmoved
            cases move with
            | call call => exact .called hs rfl hsession
            | die connection =>
                cases hsession
                exact .touched hs rfl rfl rfl rfl
            | advance i answer now =>
                obtain ⟨op, op', others, hop, -, -, -⟩ := Lifecycle.step_own hsession
                exact .advanced hs hop rfl (.inl rfl) hsession
        | cancel id =>
            cases hmoved
            exact .touched hs rfl rfl rfl rfl
        | look cancel =>
            obtain ⟨cancelled, -, hsession⟩ := Cancellable.look_session hmoved
            refine .touched hs rfl ?_ ?_ ?_
            · rw [hsession]
              rfl
            · rw [hsession]
              rfl
            · rw [hsession]
              rfl
      · cases h
  | finaliseUnstored k i answer now =>
      simp only [step] at h
      split at h
      · rename_i s hs
        split at h
        · rename_i htask
          obtain ⟨s', hmoved, rfl⟩ := Option.map_eq_some_iff.mp h
          obtain ⟨session, hsession, rfl⟩ := Option.map_eq_some_iff.mp hmoved
          obtain ⟨op, hop, hrun⟩ := (Option.any_eq_true _ _).mp htask
          exact .advanced hs hop rfl (.inr hrun) hsession
        · cases h
      · cases h
  | record k commandId stream payload now =>
      simp only [step] at h
      split at h
      · rename_i s hs
        cases h
        have hsame := record_runtime d.storage s.session.shared.runtime commandId stream payload now
        exact .touched hs rfl hsame.info hsame.connection rfl
      · cases h

theorem used_of_step {move : DaemonStep} (h : d.step move = some d') {id : String}
    (hid : id ∈ d.used) : id ∈ d'.used := by
  cases moves_of_step h with
  | crashed hrows hused => exact hused ▸ hid
  | kept hrows hused => exact hused id hid
  | unstored hs hop hbefore hafter hstage hrows hused => exact hused ▸ hid
  | advanced hs hop hbefore hafter hstage hmove =>
      generalize d'.rows = rows' at hmove
      generalize d'.used = used' at hmove ⊢
      cases hmove with
      | quiet _ _ hused => exact hused id hid
      | drawn _ _ _ _ => exact List.mem_cons_of_mem _ hid
      | _ => exact hid

end Daemon
end AiSsh
