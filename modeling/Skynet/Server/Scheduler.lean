import Skynet.Server.Reuse
import Skynet.Server.Safety

/-! The scheduler: where every queue is, and what becomes of every message. -/
namespace Skynet.Server
open Base Skynet.Handle

theorem first_service : ∃ st, Reaches step Fresh (State.initial 1 1) st ∧
    st.shared.mqLive 0 = true ∧ (st.shared.ring 0).items = [letter 1] ∧
    st.shared.accepted 0 = [letter 1] := by
  have fresh : Fresh (State.initial 1 1) (.call 0 .launch) := by
    intro storage handle registered
    have same : handle = 0x1000001 := by
      have known : handleRegister (Function.update (State.initial 1 1).shared.handle 0 0)
          (State.initial 1 1).shared.storage 0 = .ok (_, 0x1000001) := rfl
      exact (Prod.mk.inj (Except.ok.inj (registered.symm.trans known))).2
    exact ⟨by rw [same]; decide, nofun, nofun⟩
  refine ⟨_, Reaches.trans (.next .start fresh rfl) (reaches_of_list [.run 0 true, .run 0 true,
    .run 0 true, .run 0 true, .run 0 true, .run 0 true, .call 0 (.contextPush 0x1000001 (letter 1)),
    .run 0 true, .run 0 true] ?_ rfl), rfl, rfl, rfl⟩
  simp [Fresh]

/-- Whatever the threads do, as long as no launch is given a handle still in use: a queue
is at most once in the global queue or with a worker, and exactly once if it has messages
or is marked for release, unless its launch still has it; no callback is run by two
workers; and the two assertions hold. -/
theorem scheduler_keeps_queues (harbor threads : Nat) (st : State)
    (reached : Reaches step Fresh (State.initial harbor threads) st) :
    (∃ entries, st.shared.global.Linked entries ∧
      (∀ q, entries.count q + held Frame.workerQueue (frames st.threads) q ≤ 1) ∧
      ∀ q, st.shared.mqLive q = true →
        ((st.shared.ring q).items ≠ [] ∨ st.shared.release q = true) →
        entries.count q + held Frame.workerQueue (frames st.threads) q = 1 ∨
          held Frame.launchQueue (frames st.threads) q = 1) ∧
    (∀ ctx, held Frame.calling (frames st.threads) ctx ≤ 1) ∧
    st.fault ≠ some .queueNext ∧ st.fault ≠ some .releaseTwice := by
  have good := run_good reached
  obtain ⟨entries, presence⟩ := good.inv.presence
  refine ⟨⟨entries, presence.linked, ?_, ?_⟩, calling_once good.inv, ?_, ?_⟩
  · intro q
    have total := presence.total (q := q)
    have split := holding_split (frames st.threads) q
    omega
  · intro q alive wanted
    have flagged : (st.shared.inGlobal q || st.shared.release q) = true := by
      rcases wanted with filled | released
      · cases scheduled : st.shared.inGlobal q with
        | true => rfl
        | false => exact absurd (good.inv.logs.idle q alive scheduled) filled
      · rw [released, Bool.or_true]
    have one := presence.counted q alive
    rw [flagged, if_pos rfl, holding_split] at one
    omega
  · exact fun failed => good.fault _ failed
  · exact fun failed => good.fault _ failed

theorem scheduler_keeps_first : ∃ st, Reaches step Fresh (State.initial 1 1) st ∧
    (st.shared.ring 0).items ≠ [] ∧ ∃ entries, st.shared.global.Linked entries ∧
      (entries.count 0 + held Frame.workerQueue (frames st.threads) 0 = 1 ∨
        held Frame.launchQueue (frames st.threads) 0 = 1) := by
  obtain ⟨st, reached, alive, items, -⟩ := first_service
  have filled : (st.shared.ring 0).items ≠ [] := by
    rw [items]
    exact nofun
  obtain ⟨⟨entries, linked, -, once⟩, -⟩ := scheduler_keeps_queues 1 1 st reached
  exact ⟨st, reached, filled, entries, linked, once 0 alive (.inl filled)⟩

/-- The handle of a retired service is given out again while its queue is still scheduled:
two workers then run the callback of one service. -/
theorem reused_handle_runs_callback_twice : ∃ st ctx, Run step (State.initial 1 5) st ∧
    held Frame.calling (frames st.threads) ctx = 2 := by
  obtain ⟨s, c, q, first, reused⟩ := reused_reached
  obtain ⟨s', second, -, -⟩ := reused_delivered reused
  refine ⟨_, c, first.trans second, ?_⟩
  simp [frames, held, Frame.calling]

end Skynet.Server
