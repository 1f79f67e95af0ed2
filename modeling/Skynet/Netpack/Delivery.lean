import Skynet.Netpack.Framing

/-! What one call of filter answers, for any rest that was kept and any chunk. -/
namespace Skynet.LuaNetpack
open Base List Function

def Netpack.delivered (np : Netpack) : Int × List UInt8 := (np.id, np.buffer.take np.size)

def Result.delivered : Result → List (Int × List UInt8)
  | .data fd buffer => [(fd, buffer)]
  | .nothing | .more | .error .. | .opened .. | .closed _ | .warning .. => []

inductive Entry where
  | packet (fd : Int) (payload : List UInt8)
  | ended (fd : Int)
  deriving DecidableEq, Repr

def Result.ended : Result → List Entry
  | .closed fd | .error fd _ => [.ended fd]
  | .nothing | .data .. | .more | .opened .. | .warning .. => []

theorem packets_delivered (fd : Int) (payloads : List (List UInt8)) :
    (payloads.map (packet fd)).map Netpack.delivered = payloads.map fun p => (fd, p) := by
  simp [packet, Netpack.delivered]

/-- A call of filter answers with the packets that the stream of the connection now has, and
the queue keeps the new rest. -/
def Filters (fd : Int) (stream : List UInt8) (rest : Int → List UInt8)
    (answer : Except Fault (Option Queue × Result)) : Prop :=
  ∃ q r queued, answer = .ok (q, r) ∧ Shows q (Function.update rest fd (parse stream).2) queued ∧
    r.delivered ++ queued.map Netpack.delivered = ((parse stream).1.map fun p => (fd, p)) ∧
    r.ended = []

section Filter
variable {rest : Int → List UInt8} {fd : Int} {q : Queue} {buffer : List UInt8}

theorem filters_more {first : List UInt8} (shown : Shows (some q) rest [packet fd first])
    (empty : rest fd = []) (more : buffer ≠ []) {stream : List UInt8}
    (whole : parse stream = (first :: (parse buffer).1, (parse buffer).2)) :
    Filters fd stream rest ((pushMore (some q) fd buffer).map fun q => (q, .more)) := by
  obtain ⟨q', taken, shown'⟩ := pushMore_spec shown empty more
  refine ⟨q', .more, (first :: (parse buffer).1).map (packet fd), by rw [taken]; rfl, ?_, ?_, rfl⟩
  · rw [whole]
    exact shown'
  · rw [whole, packets_delivered]
    rfl

theorem filters_fresh {q : Option Queue} (shown : Shows q rest [])
    (absent : findUncomplete q fd = none) (some' : buffer ≠ []) :
    Filters fd buffer rest (filterData q fd buffer) := by
  have empty := shown.find_none absent
  unfold filterData
  rw [absent]
  match buffer, some' with
  | [b], _ =>
    refine ⟨_, _, [], rfl, ?_, by simp [parse_one, Result.delivered], rfl⟩
    rw [parse_one]
    exact shown.save empty rfl (.header b)
  | b₀ :: b₁ :: buffer, _ =>
    dsimp only
    split
    next short =>
      have alone := parse_short (readSize_eq b₀ b₁ ▸ short)
      refine ⟨_, _, [], rfl, ?_, by simp [alone, Result.delivered], rfl⟩
      rw [alone]
      exact shown.save empty rfl (keeps_started short)
    next long =>
      have whole := parse_readSize (Nat.le_of_not_lt long)
      split
      next exact =>
        have all : buffer.take (readSize b₀ b₁) = buffer := take_of_length_le (by omega)
        have nothing : buffer.drop (readSize b₀ b₁) = [] := drop_of_length_le (by omega)
        rw [all, nothing, parse_nil] at whole
        refine ⟨_, _, [], rfl, ?_, by simp [whole, Result.delivered], rfl⟩
        rw [whole, ← empty, update_eq_self]
        exact shown
      next more =>
        have pushed := shown.push fd buffer (readSize b₀ b₁)
        refine filters_more ?_ empty ?_ whole
        · simpa [packet, length_take, Nat.min_eq_left (Nat.le_of_not_lt long)] using pushed
        · intro nothing
          have length := congrArg List.length nothing
          rw [length_drop, length_nil] at length
          omega

theorem copyAt_length (l more : List UInt8) : copyAt l l.length more = l ++ more := by
  simp [copyAt]

theorem filters_fill {b₀ b₁ : UInt8} {kept : List UInt8} {header : Nat}
    (shown : Shows (some q) rest []) (empty : rest fd = [])
    (short : kept.length ≤ b₀.toNat * 256 + b₁.toNat) :
    Filters fd (b₀ :: b₁ :: (kept ++ buffer)) rest
      (fillUncomplete q fd ⟨⟨fd, b₀.toNat * 256 + b₁.toNat, kept⟩, kept.length,
      header⟩ buffer) := by
  have need : ((b₀.toNat * 256 + b₁.toNat : Nat) : Int) - kept.length =
      ((b₀.toNat * 256 + b₁.toNat - kept.length : Nat) : Int) := by omega
  unfold fillUncomplete
  simp only [need, Int.toNat_natCast, copyAt_length]
  split
  next missing =>
    have few : (kept ++ buffer).length < b₀.toNat * 256 + b₁.toNat := by
      rw [length_append]
      omega
    refine ⟨_, _, [], rfl, ?_, by simp [parse_short few, Result.delivered], rfl⟩
    rw [parse_short few]
    refine shown.save empty rfl ?_
    have body : Keeps fd _ _ := Keeps.body b₀ b₁ (kept ++ buffer) header few
    simpa using body
  next enough =>
    have many : b₀.toNat * 256 + b₁.toNat ≤ (kept ++ buffer).length := by
      rw [length_append]
      omega
    have taken : (kept ++ buffer).take (b₀.toNat * 256 + b₁.toNat) =
        kept ++ buffer.take (b₀.toNat * 256 + b₁.toNat - kept.length) := by
      rw [take_append, take_of_length_le short]
    have later : (kept ++ buffer).drop (b₀.toNat * 256 + b₁.toNat) =
        buffer.drop (b₀.toNat * 256 + b₁.toNat - kept.length) := by
      rw [drop_append, drop_of_length_le short, nil_append]
    have length : (kept ++ buffer.take (b₀.toNat * 256 + b₁.toNat - kept.length)).length =
        b₀.toNat * 256 + b₁.toNat := by
      rw [← taken, length_take, Nat.min_eq_left many]
    have whole := parse_whole many
    rw [taken, later] at whole
    split
    next last =>
      have nothing := eq_nil_of_length_eq_zero last
      rw [nothing, parse_nil] at whole
      refine ⟨_, _, [], rfl, ?_, ?_, rfl⟩
      · rw [whole, ← empty, update_eq_self]
        exact shown
      · simp only [whole, Result.delivered, take_of_length_le (Nat.le_of_eq length)]
        rfl
    next more =>
      have pushed := shown.push fd (kept ++ buffer.take (b₀.toNat * 256 + b₁.toNat - kept.length))
        (b₀.toNat * 256 + b₁.toNat)
      rw [take_of_length_le (Nat.le_of_eq length), nil_append] at pushed
      refine filters_more ?_ empty (fun nothing => more (by rw [nothing]; rfl)) whole
      rw [packet, length]
      exact pushed

theorem filters_kept {uc : Uncomplete} {l : List UInt8} (shown : Shows (some q) rest [])
    (empty : rest fd = []) (keeps : Keeps fd (some uc) l) (some' : buffer ≠ []) :
    Filters fd (l ++ buffer) rest
      ((fillHeader uc buffer).bind fun (uc, buffer) => fillUncomplete q fd uc buffer) := by
  cases keeps with
  | header b =>
    match buffer, some' with
    | b' :: buffer, _ =>
      have size : b'.toNat ||| b.toNat <<< 8 = b.toNat * 256 + b'.toNat := by
        rw [Nat.or_comm]
        exact readSize_eq b b'
      have filled : fillHeader (headerOnly fd b) (b' :: buffer) =
          .ok (⟨⟨fd, b.toNat * 256 + b'.toNat, []⟩, 0, b.toNat⟩, buffer) := by
        simp [fillHeader, headerOnly, size]
      rw [filled]
      exact filters_fill shown empty (Nat.zero_le _)
  | body b₀ b₁ kept header short =>
    have filled : fillHeader ⟨⟨fd, b₀.toNat * 256 + b₁.toNat, kept⟩, kept.length, header⟩ buffer =
        .ok (⟨⟨fd, b₀.toNat * 256 + b₁.toNat, kept⟩, kept.length, header⟩, buffer) := by
      simp [fillHeader]
    rw [filled]
    exact filters_fill shown empty (Nat.le_of_lt short)

theorem filterData_spec {q : Option Queue} (shown : Shows q rest []) (some' : buffer ≠ []) :
    Filters fd (rest fd ++ buffer) rest (filterData q fd buffer) := by
  cases known : findUncomplete q fd with
  | none =>
    rw [shown.find_none known, nil_append]
    exact filters_fresh shown known some'
  | some found =>
    obtain ⟨keeps, shown'⟩ := shown.find_some known
    have fill : Filters fd (rest fd ++ buffer) (update rest fd []) (filterData q fd buffer) := by
      unfold filterData
      rw [known]
      exact filters_kept shown' (update_self ..) keeps some'
    unfold Filters at fill ⊢
    simpa only [update_idem] using fill

end Filter

end Skynet.LuaNetpack
