import WebSocket.Proofs.Hosting.Scenes

/-!
# Turns are moves

Scenes leave the order of moves open.  Here it is shown that every turn of a task is made of moves
(`plays_turn`), and so is every step of a host that gives out turns by its own rules (`plays_step`).
So what is true of all scenes is true of a host in whatever order its tasks have their turns.
-/

namespace WebSocket

namespace Scene

theorem run_append (σ : Scene) (moves more : List Move) :
    σ.run (moves ++ more) = (σ.run moves).run more :=
  List.foldl_append ..

end Scene

namespace Host

/-- From one state of a host to another by moves. -/
def Plays (host host' : Host) : Prop :=
  ∀ σ : Scene, σ.host = host → ∃ moves, (σ.run moves).host = host'

namespace Plays

variable {host host' host'' : Host}

theorem refl (host : Host) : host.Plays host := fun _ h => ⟨[], h⟩

theorem trans (h : host.Plays host') (h' : host'.Plays host'') : host.Plays host'' := by
  intro σ hσ
  obtain ⟨moves, hmoves⟩ := h σ hσ
  obtain ⟨more, hmore⟩ := h' (σ.run moves) hmoves
  exact ⟨moves ++ more, by rw [Scene.run_append, hmore]⟩

theorem of_move (move : Move) (h : ∀ σ : Scene, σ.host = host → (σ.move move).host = host') :
    host.Plays host' :=
  fun σ hσ => ⟨[move], h σ hσ⟩

/-- Whatever leaves the core of a host as it is, is a move. -/
theorem of_core (h : host'.core = host.core) : host.Plays host' := by
  refine .of_move (.other host') ?_
  rintro σ rfl
  simp only [core, Core.mk.injEq] at h
  obtain ⟨hengine, hrunning, hcompletions, hrequests, hlinks, hjobs, hattempts, harrivals⟩ := h
  show σ.host.dressed host' = host'
  rw [dressed, ← hengine, ← hrunning, ← hcompletions, ← hrequests, ← hlinks, ← hjobs, ← hattempts,
    ← harrivals]

end Plays

variable (host : Host)

theorem plays_retire (hrunning : ¬(!host.running) = true) (hdone : host.engine.isDone = true) :
    host.Plays host.retire := by
  refine .of_move .engine ?_
  rintro σ rfl
  show σ.engineStep.host = _
  rw [Scene.engineStep, if_neg hrunning, if_pos hdone]

theorem plays_engineTurn (allowance : Nat) : host.Plays (host.engineTurn allowance).1 := by
  induction allowance generalizing host with
  | zero =>
    unfold engineTurn
    split
    · exact .refl host
    · rename_i hrunning
      split
      · rename_i hdone
        exact host.plays_retire hrunning hdone
      · exact .refl host
  | succ allowance ih =>
    unfold engineTurn
    split
    · exact .refl host
    · rename_i hrunning
      split
      · rename_i hdone
        exact host.plays_retire hrunning hdone
      · rename_i hdone
        cases htake : host.takeMail? with
        | none => exact .refl host
        | some taken =>
          obtain ⟨mail, rest⟩ := taken
          refine Plays.trans (.of_move .engine ?_) (ih (rest.handle mail))
          rintro σ rfl
          show σ.engineStep.host = _
          simp only [Scene.engineStep, if_neg hrunning, if_neg hdone, htake]
          rfl

theorem plays_turn (task : Task) : host.Plays (host.turn task).1 := by
  cases task with
  | engine => exact host.plays_engineTurn mailPerTurn
  | clients => exact .refl host
  | acceptor => exact .of_move .acceptor fun σ h => h ▸ rfl
  | reader id => exact .of_move (.job (.reader id)) fun σ h => h ▸ rfl
  | writer id => exact .of_move (.job (.writer id)) fun σ h => h ▸ rfl
  | opening transport => exact .of_move (.opening transport) fun σ h => h ▸ rfl

/-- A step of a host is made of moves: whose turn comes next is no part of the core. -/
theorem plays_step : host.Plays host.step := by
  have hpart := host.stepPart
  generalize host.step = next at hpart
  cases hpart with
  | gives => exact .of_core rfl
  | @continues task => exact host.plays_turn task
  | @ends task => exact (host.plays_turn task).trans (.of_core rfl)

end Host

end WebSocket
