import Skynet.SocketBuffer.Push
import Skynet.SocketBuffer.Line

/-! A read buffer is a string of bytes: what its operations do and answer depends on the
bytes alone, as long as the numbers that it works with fit an `int`. -/
namespace Skynet.SocketBuffer
open Base List Function Option

def onBytes (bytes : List UInt8) : Op → Answer × List UInt8
  | .push msg => (.size (bytes ++ msg).length, bytes ++ msg)
  | .pop n =>
    if 1 ≤ n ∧ n ≤ bytes.length then
      (.popped (some (bytes.take n.toNat)) (bytes.drop n.toNat).length, bytes.drop n.toNat)
    else (.popped none bytes.length, bytes)
  | .readline check sep =>
    match placeOf sep bytes with
    | none => (.line .none, bytes)
    | some i =>
      if check then (.line .found, bytes)
      else (.line (.some (bytes.take i)), bytes.drop (i + sep.length))
  | .readall => (.all bytes, [])
  | .clear => (.cleared, [])

/-- The answers of a record are those of strings of bytes. -/
def Explained : (Nat → List UInt8) → List (Nat × Op × Answer) → Prop
  | _, [] => True
  | bytes, (id, op, answer) :: later =>
    answer = (onBytes (bytes id) op).1 ∧
      Explained (update bytes id (onBytes (bytes id) op).2) later

/-- The strings after what a record tells. -/
def replay : (Nat → List UInt8) → List (Nat × Op × Answer) → Nat → List UInt8
  | bytes, [] => bytes
  | bytes, (id, op, _) :: later =>
    replay (update bytes id (onBytes (bytes id) op).2) later

/-- The chunks and separators are not empty, and what is asked for or pushed fits an `int`. -/
def Narrow (w : World) (act : Action) : Prop :=
  match act.op with
  | .push msg => 0 < msg.length ∧ (w.buffer act.id).size + msg.length < 0x80000000
  | .pop n => 0 ≤ n ∧ n < 0x80000000
  | .readline _ sep => 0 < sep.length ∧ sep.length < 0x80000000
  | .readall => True
  | .clear => True

/-- Every buffer keeps its string, in a list of its own. -/
structure Refines (w : World) (bytes : Nat → List UInt8) (free : List Addr)
    (lists : Nat → List Addr) : Prop where
  owns : ∀ id, Owns w.pool (w.buffer id) free (lists id)
  keeps : ∀ id, content w.pool (w.buffer id) (lists id) = bytes id
  size : ∀ id, (w.buffer id).size = (bytes id).length
  apart : ∀ id id', id ≠ id' → (lists id).Disjoint (lists id')

theorem explained_snoc (bytes : Nat → List UInt8) (record : List (Nat × Op × Answer)) (id : Nat)
    (op : Op) (answer : Answer) :
    Explained bytes (record ++ [(id, op, answer)]) ↔
      Explained bytes record ∧ answer = (onBytes (replay bytes record id) op).1 := by
  induction record generalizing bytes with
  | nil => simp [Explained, replay]
  | cons first later ih =>
    rw [cons_append, Explained, Explained, ih, and_assoc]
    rfl

theorem replay_snoc (bytes : Nat → List UInt8) (record : List (Nat × Op × Answer)) (id : Nat)
    (op : Op) (answer : Answer) :
    replay bytes (record ++ [(id, op, answer)]) =
      update (replay bytes record) id (onBytes (replay bytes record id) op).2 := by
  induction record generalizing bytes with
  | nil => rfl
  | cons first later ih =>
    exact ih _

theorem toInt_small {n : Int} (low : 0 ≤ n) (high : n < 0x80000000) : toInt n = n := by
  apply Int.bmod_eq_of_le <;> omega

variable {free nodes : List Addr} {w : World} {act : Action} {bytes : List UInt8}

theorem Owns.nodes_length {pool : Pool} {sb : Buffer} (owns : Owns pool sb free nodes) :
    nodes.length < pool.fresh + 1 := by
  have nodup := (nodup_append'.mp owns.nodup).2.1
  have inside : nodes ⊆ List.range pool.fresh := fun x member =>
    mem_range.mpr (owns.below x (mem_append_right _ member))
  have bound := (subperm_of_subset nodup inside).length_le
  rw [length_range] at bound
  exact Nat.lt_succ_of_le bound

/-- An operation does to a buffer what it does to a string. -/
def Performs (pool : Pool) (sb : Buffer) (l : List Addr) (bytes : List UInt8) (op : Op) : Prop :=
  ∃ pool' sb', perform pool sb op = some ((onBytes bytes op).1, pool', sb') ∧
    Keeps pool l pool' sb' (onBytes bytes op).2 ∧ sb'.size = (onBytes bytes op).2.length

section Operations
variable {pool : Pool} {sb : Buffer} {free nodes : List Addr} {bytes : List UInt8}
  (owns : Owns pool sb free nodes) (keeps : content pool sb nodes = bytes)
  (size : sb.size = bytes.length) (short : bytes.length < 0x80000000)
include owns keeps size short

theorem performs_push {msg : List UInt8} (some' : 0 < msg.length)
    (fits : sb.size + msg.length < 0x80000000) :
    Performs pool sb (free ++ nodes) bytes (.push msg) := by
  obtain ⟨pool', sb', pushed, kept, same⟩ := push_spec owns some'
  have length : toInt (sb.size + msg.length) = ((bytes ++ msg).length : Int) := by
    rw [toInt_small (by omega) fits, size, length_append]
    omega
  rw [length] at pushed same
  refine ⟨pool', sb', ?_, keeps ▸ kept, same⟩
  rw [perform, pushed]
  rfl

theorem performs_pop {n : Int} (low : 0 ≤ n) (high : n < 0x80000000) :
    Performs pool sb (free ++ nodes) bytes (.pop n) := by
  simp only [Performs, perform, popbuffer, onBytes, toInt_small low high, size]
  by_cases present : 1 ≤ n ∧ n ≤ bytes.length
  · rw [if_pos present, if_neg (by omega), if_neg (by omega)]
    obtain ⟨pool', sb', popped, kept, same⟩ :=
      popLstring_spec n.toNat 0 owns (by omega) (by rw [keeps]; omega)
    rw [keeps] at popped kept
    have left : toInt (sb'.size - n) = (bytes.drop n.toNat).length := by
      rw [same, size, toInt_small (by omega) (by omega), length_drop]
      omega
    rw [popped]
    refine ⟨pool', { sb' with size := toInt (sb'.size - n) }, ?_, kept.resize _, left⟩
    simp only [map_some, Nat.sub_zero, left]
  · rw [if_neg present, if_pos (by omega)]
    exact ⟨pool, sb, rfl, ⟨free, nodes, owns, keeps, Moved.refl _ _⟩, size⟩

omit keeps size short in
theorem performs_clear : Performs pool sb (free ++ nodes) bytes .clear := by
  obtain ⟨pool', sb', cleared, kept⟩ := clearLoop_spec owns owns.nodes_length
  refine ⟨pool', { sb' with size := 0 }, ?_, kept.resize 0, rfl⟩
  rw [perform, clearbuffer, cleared]
  rfl

omit size short in
theorem performs_readall : Performs pool sb (free ++ nodes) bytes .readall := by
  obtain ⟨pool', sb', read, kept⟩ := readallLoop_spec owns owns.nodes_length []
  rw [keeps] at read
  refine ⟨pool', { sb' with size := 0 }, ?_, kept.resize 0, rfl⟩
  rw [perform, readall, read]
  rfl

variable {sep : List UInt8}

omit short in
theorem readline_place (some' : 0 < sep.length) (narrow : sep.length < 0x80000000) {a : Addr}
    {later : List Addr} (first : nodes = a :: later) :
    readlineLoop pool sep (sb.size - toInt sep.length + 1).toNat 0 a sb.offset
      ((pool.node a).msg.length - sb.offset) = some (placeOf sep bytes) := by
  subst first
  have places : (sb.size - toInt sep.length + 1).toNat = bytes.length + 1 - sep.length := by
    rw [size, toInt_small (by omega) (by omega)]
    omega
  have path : Path pool.next (some a) (a :: later) := ⟨rfl, owns.path.2⟩
  rw [places, placeOf_eq some']
  by_cases room : sep.length ≤ bytes.length + 1
  · exact readlineLoop_spec path owns.filled (owns.offset a rfl) rfl some'
      (keeps.trans (drop_zero).symm) (by omega)
  · rw [Nat.sub_eq_zero_of_le (by omega)]
    rfl

theorem performs_readline {check : Bool} (some' : 0 < sep.length)
    (narrow : sep.length < 0x80000000) :
    Performs pool sb (free ++ nodes) bytes (.readline check sep) := by
  have unchanged : Keeps pool (free ++ nodes) pool sb bytes :=
    ⟨free, nodes, owns, keeps, Moved.refl _ _⟩
  cases nodes with
  | nil =>
    have head : sb.head = none := owns.path
    have empty : bytes = [] := keeps.symm.trans (unread_nil _)
    have nowhere : placeOf sep bytes = none := by
      have none' : ([] : List UInt8).length + 1 - sep.length = 0 := Nat.sub_eq_zero_of_le some'
      rw [placeOf_eq some', empty, none']
      rfl
    simp only [Performs, perform, readline, onBytes, head, nowhere]
    exact ⟨pool, sb, rfl, unchanged, size⟩
  | cons a later =>
    have head : sb.head = some a := owns.path.1
    have search := readline_place owns keeps size some' narrow rfl
    simp only [Performs, perform, readline, onBytes, head, search]
    rcases found : placeOf sep bytes with _ | i
    · exact ⟨pool, sb, rfl, unchanged, size⟩
    · cases check with
      | true => exact ⟨pool, sb, rfl, unchanged, size⟩
      | false =>
        have inside : i + sep.length ≤ bytes.length := by
          have hit := find?_some found
          by_contra late
          rw [not_isPrefixOf] at hit
          · cases hit
          · rw [length_drop]
            omega
        obtain ⟨pool', sb', popped, kept, same⟩ :=
          popLstring_spec (i + sep.length) sep.length owns (by omega) (by rw [keeps]; exact inside)
        rw [keeps] at popped kept
        have left : toInt (sb'.size - (i + sep.length : Nat)) =
            (bytes.drop (i + sep.length)).length := by
          rw [same, size, toInt_small (by omega) (by omega), length_drop]
          omega
        simp only [Bool.false_eq_true, if_false, popped, map_some, Nat.add_sub_cancel]
        exact ⟨pool', _, rfl, kept.resize _, left⟩

end Operations

theorem onBytes_length (narrow : Narrow w act) (size : (w.buffer act.id).size = bytes.length)
    (short : bytes.length < 0x80000000) : (onBytes bytes act.op).2.length < 0x80000000 := by
  obtain ⟨id, op⟩ := act
  cases op with
  | push msg =>
    have fits := narrow.2
    rw [size] at fits
    simp only [onBytes, length_append]
    omega
  | pop n =>
    simp only [onBytes]
    split
    · rw [length_drop]
      omega
    · exact short
  | readline check sep =>
    simp only [onBytes]
    split
    · exact short
    · split
      · exact short
      · rw [length_drop]
        omega
  | readall | clear => exact Nat.zero_lt_succ _

theorem performs (narrow : Narrow w act) (owns : Owns w.pool (w.buffer act.id) free nodes)
    (keeps : content w.pool (w.buffer act.id) nodes = bytes)
    (size : (w.buffer act.id).size = bytes.length) (short : bytes.length < 0x80000000) :
    Performs w.pool (w.buffer act.id) (free ++ nodes) bytes act.op := by
  obtain ⟨id, op⟩ := act
  cases op with
  | push msg => exact performs_push owns keeps size short narrow.1 narrow.2
  | pop n => exact performs_pop owns keeps size short narrow.1 narrow.2
  | readline check sep => exact performs_readline owns keeps size short narrow.1 narrow.2
  | readall => exact performs_readall owns keeps
  | clear => exact performs_clear owns

theorem start_refines : Refines start (fun _ => []) [] (fun _ => []) := by
  refine ⟨fun id => ?_, fun id => rfl, fun id => rfl, fun id id' _ => disjoint_nil_left _⟩
  exact ⟨rfl, rfl, rfl, nodup_nil, nofun, nofun, nofun, fun _ => rfl⟩

/- One operation on one buffer. The lists of the others stay as they are. -/
theorem step_refines {bytes : Nat → List UInt8} {lists : Nat → List Addr}
    (refines : Refines w bytes free lists) (short : ∀ id, (bytes id).length < 0x80000000)
    (narrow : Narrow w act) :
    ∃ w', step w act = some w' ∧
      w'.record = w.record ++ [(act.id, act.op, (onBytes (bytes act.id) act.op).1)] ∧
      ∃ free' lists', Refines w'
        (update bytes act.id (onBytes (bytes act.id) act.op).2) free' lists' := by
  obtain ⟨pool', sb', done, ⟨free', nodes', owns, same, moved⟩, size⟩ :=
    performs narrow (refines.owns act.id) (refines.keeps act.id) (refines.size act.id)
      (short act.id)
  refine ⟨⟨pool', update w.buffer act.id sb',
    w.record ++ [(act.id, act.op, (onBytes (bytes act.id) act.op).1)]⟩, ?_, rfl, free',
    update lists act.id nodes', ?_⟩
  · rw [step, done]
    rfl
  · have others : ∀ id, id ≠ act.id → Owns pool' (w.buffer id) free' (lists id) ∧
        content pool' (w.buffer id) (lists id) = content w.pool (w.buffer id) (lists id) ∧
        ∀ x ∈ lists id, x ∉ nodes' := by
      intro id other
      refine (refines.owns id).frame (fun x member inHere => ?_) moved owns
      exact refines.apart id act.id other member inHere
    constructor
    · intro id
      by_cases here : id = act.id
      · subst here
        simp only [update_self]
        exact owns
      · simp only [update_of_ne here]
        exact (others id here).1
    · intro id
      by_cases here : id = act.id
      · subst here
        simp only [update_self]
        exact same
      · simp only [update_of_ne here]
        exact (others id here).2.1.trans (refines.keeps id)
    · intro id
      by_cases here : id = act.id
      · subst here
        simp only [update_self]
        exact size
      · simp only [update_of_ne here]
        exact refines.size id
    · intro id id' apart
      by_cases here : id = act.id
      · subst here
        rw [update_self, update_of_ne apart.symm]
        exact fun x mine theirs => (others id' apart.symm).2.2 x theirs mine
      · rw [update_of_ne here]
        by_cases there : id' = act.id
        · subst there
          rw [update_self]
          exact fun x mine theirs => (others id here).2.2 x mine theirs
        · rw [update_of_ne there]
          exact refines.apart id id' apart

theorem socket_buffer (w : World) (run : Reaches step Narrow start w) :
    Explained (fun _ => []) w.record ∧
      (∃ free lists, Refines w (replay (fun _ => []) w.record) free lists) ∧
      ∀ act, Narrow w act → ∃ w', step w act = some w' := by
  obtain ⟨explained, short, free, lists, refines⟩ : Explained (fun _ => []) w.record ∧
        (∀ id, (replay (fun _ => []) w.record id).length < 0x80000000) ∧
        ∃ free lists, Refines w (replay (fun _ => []) w.record) free lists := by
    refine run.invariant (fun w : World => Explained (fun _ => []) w.record ∧
      (∀ id, (replay (fun _ => []) w.record id).length < 0x80000000) ∧
      ∃ free lists, Refines w (replay (fun _ => []) w.record) free lists)
      ?_ ?_
    · exact ⟨trivial, fun _ => Nat.zero_lt_succ _, [], _, start_refines⟩
    · rintro s act s' ⟨explained, short, free, lists, refines⟩ narrow taken
      obtain ⟨s'', taken', record, later⟩ := step_refines refines short narrow
      cases some.inj (taken.symm.trans taken')
      rw [record, explained_snoc, replay_snoc]
      refine ⟨⟨explained, rfl⟩, fun id => ?_, later⟩
      rw [update_apply]
      split
      · exact onBytes_length narrow (refines.size act.id) (short act.id)
      · exact short id
  refine ⟨explained, ⟨free, lists, refines⟩, fun act narrow => ?_⟩
  obtain ⟨w', taken, -⟩ := step_refines refines short narrow
  exact ⟨w', taken⟩

/- A line that ends across three chunks of one buffer, with another buffer in between. -/
def lines : List Action :=
  [⟨1, .push [97, 13]⟩, ⟨2, .push [120]⟩, ⟨1, .push [10]⟩, ⟨1, .push [13, 98]⟩,
    ⟨1, .readline false [13, 10, 13]⟩, ⟨1, .pop 2⟩, ⟨1, .pop 1⟩, ⟨2, .clear⟩]

def checked (w : World) (act : Action) : Bool :=
  match act.op with
  | .push msg => 0 < msg.length && (w.buffer act.id).size + msg.length < 0x80000000
  | .pop n => 0 ≤ n && n < 0x80000000
  | .readline _ sep => 0 < sep.length && sep.length < 0x80000000
  | .readall => true
  | .clear => true

theorem checked_narrow (w : World) (act : Action) (passed : checked w act = true) :
    Narrow w act := by
  obtain ⟨id, op⟩ := act
  cases op with
  | push _ | pop _ | readline _ _ => simpa [checked, Narrow] using passed
  | readall => trivial
  | clear => trivial

theorem socket_buffer_lines : ∃ w, Reaches step Narrow start w ∧
    Explained (fun _ => []) w.record ∧
    w.record.getLast? = some (2, .clear, .cleared) ∧
    w.record[4]? = some (1, .readline false [13, 10, 13], .line (.some [97])) ∧
    w.record[5]? = some (1, .pop 2, .popped none 1) := by
  have run : Reaches step Narrow start _ := reaches_of_checked checked checked_narrow lines rfl
  have explained := (socket_buffer _ run).1
  exact ⟨_, run, explained, rfl, rfl, rfl⟩

/- Asked for 2 ^ 32 + 1 bytes, a buffer with one byte gives that byte. -/
theorem socket_buffer_wide : ∃ w, Run step start w ∧
    w.record = [(1, .push [97], .size 1), (1, .pop 0x100000001, .popped (some [97]) 0)] ∧
    ¬ Explained (fun _ => []) w.record := by
  obtain ⟨w, taken⟩ : ∃ w, [Action.mk 1 (.push [97]), ⟨1, .pop 0x100000001⟩].foldlM step start =
      some w := ⟨_, rfl⟩
  have run := run_of_list _ taken
  have record : w.record =
      [(1, .push [97], .size 1), (1, .pop 0x100000001, .popped (some [97]) 0)] := by
    cases taken
    rfl
  refine ⟨w, run, record, ?_⟩
  rw [record]
  rintro ⟨-, wrong, -⟩
  exact absurd wrong (by decide)

end Skynet.SocketBuffer
