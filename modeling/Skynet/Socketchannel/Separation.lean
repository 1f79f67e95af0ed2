import Skynet.Socketchannel.Requests

/-! Over whole runs: one dispatcher reads the channel's socket, no connection is closed for
another, and every request is resumed with what belongs to its own connection. -/
namespace Skynet.Socketchannel
open Base List Option

variable {desc : Desc} {w w' : World} {n : Nat} {c : Conn} {written : Bool} {fd : Conn}

theorem Apart.afterClose {after : After} (apart : Apart desc w)
    (closing : w.task n = .closing fd after) : Apart desc (w.afterClose desc n written after) := by
  have idle : ∀ ticket, w.task n ≠ .waiting ticket := by
    rw [closing]
    exact nofun
  cases after with
  | writeFailed conn =>
    obtain ⟨rfl, gone⟩ := apart.current.writing n fd conn closing
    exact apart.writeFailed idle gone
  | changehost => exact apart.setRunning idle
  | authFailed req =>
    obtain ⟨conn, known⟩ := apart.current.unauthed n fd req closing
    exact apart.authFailed known idle

theorem Apart.resume (apart : Apart desc w) (taken : w.resume desc n written = some w') :
    Apart desc w' := by
  unfold World.resume at taken
  obtain ⟨-, taken⟩ := ite_none_right_eq_some.mp taken
  split at taken
  next req queued =>
    cases taken
    apply apart.proceed
    rw [queued]
    exact nofun
  next ticket waiting =>
    obtain ⟨r, known, rfl⟩ := map_eq_some_iff.mp taken
    exact apart.finish waiting known
  next fd after closing =>
    cases taken
    exact (apart.setSocket fd none).afterClose closing
  next => cases taken
  next => cases taken

theorem Apart.wakeClosing (apart : Apart desc w) (so : Option Conn) :
    Apart desc (w.wakeClosing so) := by
  unfold World.wakeClosing
  split
  · exact apart
  · exact apart.wakeup _

theorem wakeClosing_same (w : World) (so : Option Conn) :
    (w.wakeClosing so).dispatch = w.dispatch ∧ (w.wakeClosing so).opened = w.opened ∧
      (w.wakeClosing so).sock = w.sock := by
  unfold World.wakeClosing
  split <;> exact ⟨rfl, rfl, rfl⟩

section
variable (apart : Apart desc w)
include apart

theorem Apart.resumeDispatch (taken : w.resumeDispatch desc c = some w') : Apart desc w' := by
  unfold World.resumeDispatch at taken
  obtain ⟨-, taken⟩ := ite_none_right_eq_some.mp taken
  split at taken
  next popping =>
    cases taken
    have own := apart.own popping nofun
    apply apart.popResponse own
    rw [popping]
    exact ⟨rfl, rfl⟩
  next so held reading =>
    cases taken
    obtain ⟨dispatch, opened, sock⟩ := wakeClosing_same w so
    have own := apart.own reading nofun
    refine (apart.wakeClosing so).setDispatch (own.trans opened.symm) ?_ ?_ ?_ nofun ?_
    · rw [dispatch, reading]
      rfl
    · rw [dispatch, reading]
      cases so <;> rfl
    · intro so' held' blocked now
      cases now
      exact (apart.current.reading c so' held true reading).trans opened.symm
    · intro stopped
      rw [sock]
      apply apart.current.stopped c
      rw [reading]
      cases so <;> exact stopped
  next fd so held closing =>
    cases taken
    have own := apart.own closing nofun
    refine (apart.setSocket fd none).readFailed own ?_ ?_ ?_
    · apply apart.current.stopped c
      rw [closing]
      rfl
    · rintro conn rfl
      exact apart.current.failing c fd conn held closing
    · change (w.dispatch c).held = held.toList
      rw [closing]
      rfl
  next => cases taken
  next => cases taken
  next => cases taken

theorem Apart.block (taken : w.block c = some w') : Apart desc w' := by
  unfold World.block at taken
  split at taken
  next so held reading =>
    split at taken
    next closing known =>
      cases taken
      have own := apart.own reading nofun
      refine Apart.setDispatch ((apart.setSocket so _).sleep _) own ?_ ?_ ?_ nofun nofun
      · change _ = (w.dispatch c).held
        rw [reading]
        rfl
      · change _ = (w.dispatch c).taken
        rw [reading]
        rfl
      · intro so' held' blocked now
        cases now
        exact apart.current.reading c so held false reading
    next => cases taken
  next => cases taken

theorem Apart.readFail (taken : w.readFail desc c = some w') : Apart desc w' := by
  unfold World.readFail at taken
  split at taken
  next so held reading =>
    have own := apart.own reading nofun
    have from' : ∀ conn, so = some conn → conn = w.opened := by
      rintro conn rfl
      exact apart.current.reading c conn held false reading
    have cause : so.getD c = w.opened := by
      cases so with
      | none => exact own
      | some conn => exact from' conn rfl
    have closed : Apart desc (w.closeChannelSocket (.dispatcher c) (so.getD c)).1 := by
      apply apart.closeChannelSocket
      intro fd known
      rw [cause]
      exact (apart.current.sock fd known).symm
    have kept := closeChannelSocket_kept w (.dispatcher c) (so.getD c)
    split at taken
    next w₁ fd result =>
      rw [result] at closed kept
      cases taken
      have holds : w₁.dispatch c = .reading so held false := by
        rw [kept.dispatch]
        exact reading
      refine closed.setDispatch (own.trans kept.opened.symm) ?_ ?_ nofun ?_ fun _ => kept.sock
      · rw [holds]
        rfl
      · rw [holds]
        cases so <;> rfl
      · intro fd' so' held' now
        cases now
        exact (from' so' rfl).trans kept.opened.symm
    next w₁ result =>
      rw [result] at closed kept
      cases taken
      refine closed.readFailed (own.trans kept.opened.symm) kept.sock ?_ ?_
      · intro conn known
        exact (from' conn known).trans kept.opened.symm
      · rw [kept.dispatch, reading]
        rfl
  next => cases taken

theorem Apart.data (taken : w.data fd = some w') : Apart desc w' := by
  unfold World.data at taken
  split at taken
  · split at taken
    · cases taken
      exact (apart.setSocket _ _).wakeup _
    · cases taken
  · cases taken

theorem Apart.hangup (taken : w.hangup fd = some w') : Apart desc w' := by
  obtain ⟨s, -, rfl⟩ := map_eq_some_iff.mp taken
  split
  · exact apart.setSocket _ _
  · exact (apart.setSocket _ _).wakeup _

end

/-- A new connection is there only when nothing is left of the one before. -/
def Settled (w : World) : Action → Prop
  | .connected _ _ => WoundUp w
  | _ => True

theorem step_apart {a : Action} (apart : Apart desc w) (settled : Settled w a)
    (taken : step desc w a = some w') : Apart desc w' := by
  cases a with
  | request n req written =>
    obtain ⟨running, made⟩ := ite_none_right_eq_some.mp taken
    cases made
    exact apart.request running
  | changehost n =>
    obtain ⟨running, made⟩ := ite_none_right_eq_some.mp taken
    cases made
    exact apart.changehost running
  | connected n written =>
    dsimp only [step] at taken
    split at taken
    next req opening =>
      cases taken
      exact apart.connected settled opening
    next => cases taken
  | openFailed n written =>
    dsimp only [step] at taken
    split at taken
    next req opening =>
      cases taken
      obtain ⟨nobody, -, alone⟩ := apart.current.opening n req opening
      refine apart.connectDone ?_ nobody alone
      rw [opening]
      exact nofun
    next => cases taken
  | authReturn n written =>
    dsimp only [step] at taken
    split at taken
    next known =>
      obtain ⟨⟨rfl, running⟩, made⟩ := ite_none_right_eq_some.mp taken
      cases made
      exact apart.authReturned known running
    next => cases taken
  | authThrow n written =>
    dsimp only [step] at taken
    split at taken
    next known =>
      obtain ⟨⟨rfl, running⟩, made⟩ := ite_none_right_eq_some.mp taken
      cases made
      exact apart.authThrown known running
    next => cases taken
  | resume n written => exact apart.resume taken
  | beginDispatch c =>
    obtain ⟨head, made⟩ := ite_none_right_eq_some.mp taken
    cases made
    exact apart.dispatchLoop (apart.own head nofun) head
  | resumeDispatch c => exact apart.resumeDispatch taken
  | block c => exact apart.block taken
  | respond c number padding =>
    dsimp only [step] at taken
    split at taken
    next so held reading =>
      cases taken
      exact apart.received reading
    next => cases taken
  | readFail c => exact apart.readFail taken
  | data fd => exact apart.data taken
  | hangup fd => exact apart.hangup taken

theorem start_apart (desc : Desc) : Apart desc start := by
  refine ⟨⟨nofun, ?_, nofun, nofun, nofun, nofun, nofun, nofun, nofun⟩,
    ⟨nofun, nodup_nil, nofun, nofun, fun _ _ => ⟨rfl, rfl⟩, fun _ => ⟨0, rfl, ?_, ?_⟩⟩,
    nofun, nofun⟩
  · intro c alive
    exact absurd rfl alive
  · intro sock
    exact absurd rfl sock
  · intro _
    rfl

def byOrder : Desc := ⟨false, false⟩

theorem few {P : Nat → Prop} (zero : P 0) (one : P 1) (others : ∀ n, P (n + 2)) : ∀ n, P n
  | 0 => zero
  | 1 => one
  | n + 2 => others n

/- A request gets its response, the next one the error of its connection. -/
def answerThenFail : List Action :=
  [.beginDispatch 1, .respond 1 0 false, .resume 1 true, .request 1 (some 0) true,
    .resumeDispatch 1, .hangup 1, .readFail 1, .resume 1 true, .request 1 (some 0) true]

theorem woundUp_of (ended : ∀ c, w.dispatch c = .ended)
    (calm : ∀ n, w.task n = .running ∨ ∃ req, w.task n = .opening req) (empty : w.thread = []) :
    WoundUp w := by
  refine ⟨ended, fun n fd conn now => ?_, empty⟩
  rcases calm n with running | ⟨req, opening⟩
  · cases running.symm.trans now
  · cases opening.symm.trans now

/- The dispatcher of the first connection waits for requests while the host is changed; the next
request wakes it, and another one the dispatcher of the second connection. -/
end Skynet.Socketchannel
