import Skynet.Base.Run

/-! dispatch_by_order on one connection that stays up, with responses of several parts. The
requests are numbered as they are made, each with its response function and its coroutine. -/
namespace Skynet.Socketchannel.Padding
open Base List Function

/-- A part of the response to a request. -/
structure Part where
  request : Nat
  number : Nat
  deriving DecidableEq

/- `coming` is the part the peer sends next. `reads` tells whose response function has read which
part, `resumed` which coroutine was woken with which parts; a response with no padding is a list
of one. -/
structure Channel where
  made : Nat
  request : List Nat
  thread : List Nat
  coming : Part
  resultData : Nat → List Part
  reads : List (Nat × Part)
  resumed : List (Nat × List Part)

def start : Channel := ⟨0, [], [], ⟨0, 0⟩, fun _ => [], [], []⟩

inductive Action where
  | request
  | part

def Channel.pushResponse (s : Channel) : Channel :=
  { s with made := s.made + 1, request := s.request ++ [s.made], thread := s.thread ++ [s.made] }

/- One turn of the loop, in which `func` reads the part that comes. -/
def Channel.dispatch (s : Channel) (func co : Nat) (padding : Bool) : Channel :=
  let read := { s with
    request := s.request.tail
    thread := s.thread.tail
    coming := if padding then ⟨s.coming.request, s.coming.number + 1⟩ else ⟨s.coming.request + 1, 0⟩
    reads := s.reads ++ [(func, s.coming)] }
  if padding then
    { read with resultData := update s.resultData co (s.resultData co ++ [s.coming]) }
  else
    { read with
      resultData := update s.resultData co []
      resumed := s.resumed ++ [(co, s.resultData co ++ [s.coming])] }

/- `parts` is how many parts the response to a request has; a part comes after its request. -/
def step (parts : Nat → Nat) (s : Channel) : Action → Option Channel
  | .request => some s.pushResponse
  | .part =>
    match s.request, s.thread with
    | func :: _, co :: _ =>
      if s.coming.request < s.made then
        some (s.dispatch func co (s.coming.number + 1 < parts s.coming.request))
      else none
    | _, _ => none

/-- The requests before the part that comes are answered, the others wait in order. -/
structure InOrder (s : Channel) : Prop where
  first : s.coming.number = 0
  behind : s.coming.request ≤ s.made
  request : s.request = range' s.coming.request (s.made - s.coming.request)
  thread : s.thread = s.request
  clear : ∀ co, s.resultData co = []
  reads : ∀ p ∈ s.reads, p.1 = p.2.request
  resumed : s.resumed = (range s.coming.request).map fun n => (n, [⟨n, 0⟩])

theorem InOrder.step {parts : Nat → Nat} {s s' : Channel} {a : Action} (order : InOrder s)
    (single : ∀ n, parts n = 1) (taken : step parts s a = some s') : InOrder s' := by
  obtain ⟨first, behind, request, thread, clear, reads, resumed⟩ := order
  cases a with
  | request =>
    cases taken
    have more : s.made + 1 - s.coming.request = s.made - s.coming.request + 1 := by omega
    refine ⟨first, Nat.le_succ_of_le behind, ?_, ?_, clear, reads, resumed⟩
    · dsimp only [Channel.pushResponse]
      rw [more, range'_concat, request, Nat.one_mul, Nat.add_sub_cancel' behind]
    · simp [Channel.pushResponse, thread]
  | part =>
    dsimp only [Padding.step] at taken
    split at taken
    next func later co later' queued queued' =>
      obtain ⟨there, made⟩ := Option.ite_none_right_eq_some.mp taken
      have whole : decide (s.coming.number + 1 < parts s.coming.request) = false := by
        simp [single]
      rw [whole] at made
      cases made
      obtain ⟨left, more⟩ : ∃ n, s.made - s.coming.request = n + 1 :=
        Nat.exists_eq_add_one.mpr (Nat.sub_pos_of_lt there)
      rw [more, range'_succ] at request
      cases queued.symm.trans request
      cases queued'.symm.trans (thread.trans queued)
      have fewer : s.made - (s.coming.request + 1) = left := by omega
      refine ⟨rfl, there, ?_, ?_, ?_, ?_, ?_⟩
      · simp [Channel.dispatch, queued, fewer]
      · simp [Channel.dispatch, queued, queued']
      · simp [Channel.dispatch, update_apply, clear]
      · intro p member
        rcases mem_append.mp member with old | new
        · exact reads p old
        · cases mem_singleton.mp new
          rfl
      · have here : s.coming = ⟨s.coming.request, 0⟩ := by rw [← first]
        simpa [Channel.dispatch, clear, resumed, range_succ] using here
    next => cases taken

/-- When every response has one part, each part is read by the function of its own request and
the requests are resumed in order, once and with their own part. -/
theorem parts_in_order (parts : Nat → Nat) (single : ∀ n, parts n = 1) (s : Channel)
    (run : Run (step parts) start s) : (∀ p ∈ s.reads, p.1 = p.2.request) ∧
    s.resumed = (range s.coming.request).map fun n => (n, [⟨n, 0⟩]) := by
  have order : InOrder s := by
    refine run.invariant InOrder ⟨rfl, le_rfl, rfl, rfl, fun _ => rfl, ?_, rfl⟩ ?_
    · exact forall_mem_nil _
    intro s a s' order _ taken
    exact order.step single taken
  exact ⟨order.reads, order.resumed⟩

theorem parts_in_order_two : ∃ s, Run (step fun _ => 1) start s ∧
    s.resumed = (range 2).map fun n => (n, [⟨n, 0⟩]) := by
  have run : Run (step fun _ => 1) start _ := run_of_list [.request, .request, .part, .part] rfl
  exact ⟨_, run, (parts_in_order _ (fun _ => rfl) _ run).2⟩

/- The first of three responses has two parts. The second is read by the function of the second
request, whose coroutine gets it; the first request is never resumed. -/
theorem parts_in_order_shifted :
    ∃ s, Run (step fun n => if n = 0 then 2 else 1) start s ∧ s.coming = ⟨2, 0⟩ ∧
      s.reads = [(0, ⟨0, 0⟩), (1, ⟨0, 1⟩), (2, ⟨1, 0⟩)] ∧
      s.resumed = [(1, [⟨0, 1⟩]), (2, [⟨1, 0⟩])] ∧ s.thread = [] :=
  ⟨_, run_of_list [.request, .request, .request, .part, .part, .part] rfl, rfl, rfl, rfl, rfl⟩

end Skynet.Socketchannel.Padding
