import Skynet.Harbor.Addressing

/-! Messages for a harbor that is down. -/
namespace Skynet.HarborService
open Base List

section Runs
variable (alive : Nat → UInt32 → Bool) (heap : Nat → UInt8)

def runOf (number : Nat) (slave : UInt32) (events : List Incoming) : Harbor :=
  events.foldl (mainloop alive heap) (harborCreate number slave)

def calls (h : Harbor) (e : Incoming) : List Effect :=
  (mainloop alive heap h e).log.drop h.log.length

theorem runOf_links (number : Nat) (slave : UInt32) (events : List Incoming) :
    Links (runOf alive heap number slave events) ∧ Plain (runOf alive heap number slave events) := by
  unfold runOf
  induction events using List.reverseRecOn with
  | nil => exact ⟨harborCreate_links number slave, nofun⟩
  | append_singleton events e ih =>
    rw [foldl_append]
    obtain ⟨id, fresh, effective⟩ := mainloop_effective alive heap ih.1 ih.2 e
    exact ⟨effective.touched.links, mainloop_plain alive heap ih.1 ih.2 e⟩

end Runs

/-- A message by handle to another harbor that is down. -/
def ToDown (h : Harbor) : Incoming → Prop
  | .toHandle _ destination _ _ _ => destination ≠ 0 ∧ harborOf destination ≠ h.id ∧
    (h.s (harborOf destination)).status = .down
  | _ => False

/-- The sender of such a message gets an error from its destination, and nothing is written. -/
def Reported (calls : List Effect) : Incoming → Prop
  | .toHandle source destination _ _ _ => .send destination source ptypeError 0 none ∈ calls ∧
    ∀ id fd m, .remote id fd m ∉ calls
  | _ => True

variable {alive : Nat → UInt32 → Bool} {heap : Nat → UInt8}

/- A harbor that is down keeps its descriptor, so the message is written to it as if it were up. -/
theorem down_calls {h : Harbor} (links : Links h) {source destination type session : UInt32}
    {msg : Message} (down : ToDown h (.toHandle source destination type session msg)) :
    calls alive heap h (.toHandle source destination type session msg) =
      ([cookieOf source destination type session msg].filter (Accepted ·)).map
        (.remote (harborOf destination) (h.s (harborOf destination)).fd) := by
  obtain ⟨nonzero, remote, status⟩ := down
  have fd : (h.s (harborOf destination)).fd ≠ 0 := by
    intro zero
    have wait := (links.connected _).mpr zero
    rw [status] at wait
    cases wait
  have open' : ¬ ((h.s (harborOf destination)).fd = 0 ∨
      (h.s (harborOf destination)).status = .handshake) := by
    rw [status, not_or]
    exact ⟨fd, nofun⟩
  have sent : mainloop alive heap h (.toHandle source destination type session msg) =
      sendRemote (harborOf destination) (h.s (harborOf destination)).fd h
        (cookieOf source destination type session msg) := by
    rw [mainloop, if_neg nonzero, remoteSendHandle, if_neg remote]
    rw [if_neg open']
    rfl
  rw [calls, sent, sendRemote_eq]
  exact drop_left

theorem down_unreported {h : Harbor} (links : Links h) {e : Incoming} (down : ToDown h e) :
    ¬ Reported (calls alive heap h e) e := by
  cases e with
  | data | closed | connect | named | toName => exact down.elim
  | toHandle source destination type session msg =>
    rintro ⟨error, -⟩
    rw [down_calls links down] at error
    obtain ⟨m, -, same⟩ := mem_map.mp error
    cases same

/-- Messages to a harbor that is down are reported in the runs in which there are none. -/
theorem harbor_down_reports (number : Nat) (slave : UInt32) (events : List Incoming) :
    (∀ before e later, events = before ++ e :: later →
      ToDown (runOf alive heap number slave before) e →
        Reported (calls alive heap (runOf alive heap number slave before) e) e) ↔
    ∀ before e later, events = before ++ e :: later →
      ¬ ToDown (runOf alive heap number slave before) e := by
  constructor
  · intro reported before e later split down
    have links := (runOf_links alive heap number slave before).1
    exact down_unreported links down (reported before e later split down)
  · intro none before e later split down
    exact absurd down (none before e later split)

/- The link is closed at a message that is too long, and the next message is written to it. -/
theorem harbor_down_unreported :
    ToDown (runOf (fun _ _ => true) (fun _ => 0) 1 0x01000002
        [.connect true 7 2, .data 7 [1, 0, 0, 0]]) (.toHandle 0x01000005 0x02000009 10 4 ⟨0, []⟩) ∧
      calls (fun _ _ => true) (fun _ => 0) (runOf (fun _ _ => true) (fun _ => 0) 1 0x01000002
        [.connect true 7 2, .data 7 [1, 0, 0, 0]]) (.toHandle 0x01000005 0x02000009 10 4 ⟨0, []⟩) =
      [.remote 2 7 ⟨⟨0x01000005, 0x0a000009, 4⟩, ⟨0, []⟩⟩] := by
  refine ⟨⟨by decide, by decide, ?_⟩, ?_⟩
  · rfl
  · rfl

end Skynet.HarborService
