import Mathlib.Data.Stream.Init
import SerialPackets.Client.Moves
import SerialPackets.Client.SendResults

/-!
# The receiving loop

`loop_rx` reads as many bytes as `available` announced, in pieces, and passes each to the decoder as
it comes. What is left to read goes down by what each `readBytes` returned, and a read that returns
nothing is logged and repeated. So the loop comes back exactly when the stream does not fall silent
before it has delivered what it announced (`loopRxEnds_iff`); the answers of the stream are an
infinite sequence here, of which the loop takes as many as it needs.
-/

namespace SerialPackets

variable {cfg : Config} {H : Type*}

namespace Device

variable (react : ℕ → Reaction cfg H)

/-! ## Passing bytes on -/

/-- A step of the loop: a read that is waited for and perhaps logged as short, or one byte that is
decoded, with the packet it completes dispatched before the next step. -/
inductive RxStep : Device cfg H → List UInt8 → Device cfg H → Prop
  | read (d : Device cfg H) (waitMillis count got : ℕ) :
      RxStep d [] (d.afterRead waitMillis count got)
  | byte (d : Device cfg H) (b : UInt8) : RxStep d [b] (d.decodeByte react b)

/-- Steps of the loop, with the bytes passed to the decoder. -/
abbrev Passes : Device cfg H → List UInt8 → Device cfg H → Prop := Runs.Reaches (RxStep react)

theorem passes_foldl_decodeByte (bytes : List UInt8) (d : Device cfg H) :
    Passes react d bytes (bytes.foldl (decodeByte react) d) := by
  induction bytes generalizing d with
  | nil => exact .refl d
  | cons b bytes ih => exact (Runs.Reaches.single (.byte d b)).trans (ih _)

private theorem ignoring_foldl_decodeByte (bytes : List UInt8) (d : Device cfg H) :
    (bytes.foldl (decodeByte react) d).ignoreRxForTesting = d.ignoreRxForTesting :=
  (moves_foldl_decodeByte react bytes d).frame.1

/-- The state after one answer of `readBytes`. -/
def afterAnswer (d : Device cfg H) (n : ℕ) (answer : ReadAnswer) : Device cfg H :=
  let bytes := answer.bytes.take (min rxTransferBufferLen n)
  bytes.foldl (decodeByte react)
    (d.afterRead answer.waitMillis (min rxTransferBufferLen n) bytes.length)

private theorem ignoring_afterAnswer (d : Device cfg H) (n : ℕ) (answer : ReadAnswer) :
    (d.afterAnswer react n answer).ignoreRxForTesting = d.ignoreRxForTesting := by
  rw [afterAnswer, ignoring_foldl_decodeByte, (d.quiet_afterRead _ _ _).ignoring]

private theorem loopRx?_cons {d : Device cfg H} (hignore : d.ignoreRxForTesting = false) (n : ℕ)
    (answer : ReadAnswer) (answers : List ReadAnswer) :
    loopRx? react d (n + 1) (answer :: answers)
      = loopRx? react (d.afterAnswer react (n + 1) answer)
          (n + 1 - (answer.bytes.take (min rxTransferBufferLen (n + 1))).length) answers := by
  rw [loopRx?, if_neg (by
    rw [(d.quiet_afterRead _ _ _).ignoring, hignore]
    exact Bool.false_ne_true)]
  rfl

private theorem passes_afterAnswer (d : Device cfg H) (n : ℕ) (answer : ReadAnswer) :
    Passes react d (answer.bytes.take (min rxTransferBufferLen n))
      (d.afterAnswer react n answer) :=
  (Runs.Reaches.single (.read d _ _ _)).trans (passes_foldl_decodeByte react _ _)

theorem passes_loopRx? {d d' : Device cfg H} {n : ℕ} {answers : List ReadAnswer}
    (hignore : d.ignoreRxForTesting = false) (h : loopRx? react d n answers = some d') :
    Passes react d (bytesRead n answers) d' := by
  induction answers generalizing d n with
  | nil =>
    match n with
    | 0 => exact Option.some_inj.mp h ▸ .refl d
    | n + 1 => exact absurd h (Option.some_ne_none _).symm
  | cons answer answers ih =>
    match n with
    | 0 => exact Option.some_inj.mp h ▸ .refl d
    | n + 1 =>
      rw [loopRx?_cons react hignore] at h
      exact (passes_afterAnswer react d (n + 1) answer).trans
        (ih (by rw [ignoring_afterAnswer, hignore]) h)

/-- The bytes that a call of the loop passes on. With the testing hook on, it drops what it reads
and returns. -/
theorem reads_loopRx? {d d' : Device cfg H} {n : ℕ} {answers : List ReadAnswer}
    (h : loopRx? react d n answers = some d') :
    Passes react d (if d.ignoreRxForTesting then [] else bytesRead n answers) d' := by
  cases hignore : d.ignoreRxForTesting with
  | false => exact passes_loopRx? react hignore h
  | true =>
    match n, answers with
    | 0, _ =>
      rw [loopRx?, Option.some_inj] at h
      exact h ▸ .refl d
    | n + 1, answer :: answers =>
      rw [loopRx?, if_pos (by rw [(d.quiet_afterRead _ _ _).ignoring, hignore]),
        Option.some_inj] at h
      exact h ▸ .single (.read d _ _ _)

/-! ## When the loop comes back -/

/-- The number of bytes that answers of `readBytes` deliver, at most a buffer full each. -/
def delivered (answers : List ReadAnswer) : ℕ :=
  (answers.map fun answer ↦ min rxTransferBufferLen answer.bytes.length).sum

/-- The stream falls silent with some of `n` bytes outstanding: from some point on every `readBytes`
returns nothing. -/
def Stalls (n : ℕ) (answers : Stream' ReadAnswer) : Prop :=
  ∃ k, delivered (answers.take k) < n ∧ ∀ j, k ≤ j → (answers.get j).bytes = []

/-- `loop_rx` comes back after finitely many answers of the stream, having passed what it read to
the decoder. -/
def LoopRxEnds (d : Device cfg H) (available : ℤ) (answers : Stream' ReadAnswer) : Prop :=
  ∃ k d', loopRx? react d (available % 2 ^ 16).toNat (answers.take k) = some d' ∧
    Passes react d (bytesRead (available % 2 ^ 16).toNat (answers.take k)) d'

private theorem delivered_cons (answer : ReadAnswer) (answers : List ReadAnswer) :
    delivered (answer :: answers)
      = min rxTransferBufferLen answer.bytes.length + delivered answers := by
  rw [delivered, List.map_cons, List.sum_cons, delivered]

private theorem le_delivered_of_loopRx? {d d' : Device cfg H} {n : ℕ} {answers : List ReadAnswer}
    (hignore : d.ignoreRxForTesting = false) (h : loopRx? react d n answers = some d') :
    n ≤ delivered answers := by
  induction answers generalizing d n with
  | nil =>
    match n with
    | 0 => exact Nat.zero_le _
    | n + 1 => exact absurd h (Option.some_ne_none _).symm
  | cons answer answers ih =>
    match n with
    | 0 => exact Nat.zero_le _
    | n + 1 =>
      rw [loopRx?_cons react hignore] at h
      have hrest := ih (by rw [ignoring_afterAnswer, hignore]) h
      rw [List.length_take] at hrest
      rw [delivered_cons]
      omega

private theorem delivered_take_le {answers : Stream' ReadAnswer} {k : ℕ}
    (hsilent : ∀ j, k ≤ j → (answers.get j).bytes = []) (m : ℕ) :
    delivered (answers.take m) ≤ delivered (answers.take k) := by
  induction m generalizing answers k with
  | zero => exact Nat.zero_le _
  | succ m ih =>
    rw [Stream'.take_succ, delivered_cons]
    cases k with
    | zero =>
      have hhead : answers.head.bytes = [] := hsilent 0 (Nat.zero_le 0)
      have htail := @ih answers.tail 0 fun j _ ↦ hsilent (j + 1) (Nat.zero_le _)
      rw [hhead, List.length_nil, Nat.min_zero, Nat.zero_add]
      exact htail
    | succ k =>
      rw [Stream'.take_succ, delivered_cons]
      have htail := @ih answers.tail k fun j hj ↦ hsilent (j + 1) (Nat.succ_le_succ hj)
      exact Nat.add_le_add_left htail _

private theorem stalls_of_tail {n : ℕ} {answers : Stream' ReadAnswer}
    (h : Stalls (n - (answers.head.bytes.take (min rxTransferBufferLen n)).length) answers.tail) :
    Stalls n answers := by
  obtain ⟨k, hlt, hsilent⟩ := h
  refine ⟨k + 1, ?_, ?_⟩
  · rw [Stream'.take_succ, delivered_cons]
    rw [List.length_take] at hlt
    omega
  · intro j hj
    match j, hj with
    | j + 1, hj => exact hsilent j (Nat.le_of_succ_le_succ hj)

private theorem loopRx?_take_succ {d : Device cfg H} (hignore : d.ignoreRxForTesting = false)
    (n k : ℕ) (answers : Stream' ReadAnswer) :
    loopRx? react d (n + 1) (answers.take (k + 1))
      = loopRx? react (d.afterAnswer react (n + 1) answers.head)
          (n + 1 - (answers.head.bytes.take (min rxTransferBufferLen (n + 1))).length)
          (answers.tail.take k) := by
  rw [Stream'.take_succ, loopRx?_cons react hignore]

/-- **The loop comes back** unless the stream falls silent. The induction is on the bytes that are
outstanding, and inside it on the empty answers before the next one that is not. -/
theorem exists_loopRx?_of_not_stalls {n : ℕ} {d : Device cfg H} {answers : Stream' ReadAnswer}
    (hignore : d.ignoreRxForTesting = false) (h : ¬Stalls n answers) :
    ∃ k d', loopRx? react d n (answers.take k) = some d' := by
  induction n using Nat.strong_induction_on generalizing d answers with
  | _ n ih =>
    match n with
    | 0 => exact ⟨0, d, rfl⟩
    | n + 1 =>
      -- an answer with bytes leaves fewer of them to read
      have hprogress {d : Device cfg H} {answers : Stream' ReadAnswer}
          (hignore : d.ignoreRxForTesting = false) (h : ¬Stalls (n + 1) answers)
          (hhead : answers.head.bytes ≠ []) :
          ∃ k d', loopRx? react d (n + 1) (answers.take k) = some d' := by
        have hpos : 0 < answers.head.bytes.length := List.length_pos_iff.mpr hhead
        have hbuffer : rxTransferBufferLen = 100 := rfl
        have hlt : n + 1 - (answers.head.bytes.take (min rxTransferBufferLen (n + 1))).length
            < n + 1 := by
          rw [List.length_take]
          omega
        obtain ⟨k, d', hk⟩ := @ih _ hlt (d.afterAnswer react (n + 1) answers.head) answers.tail
          (by rw [ignoring_afterAnswer, hignore]) fun hstalls ↦ h (stalls_of_tail hstalls)
        exact ⟨k + 1, d', by rw [loopRx?_take_succ react hignore, hk]⟩
      -- the next answer with bytes comes after `j` empty ones: induction on `j`
      obtain ⟨j, hj⟩ : ∃ j, (answers.get j).bytes ≠ [] := by
        by_contra hsilent
        push Not at hsilent
        exact h ⟨0, Nat.succ_pos n, fun j _ ↦ hsilent j⟩
      induction j generalizing d answers with
      | zero => exact hprogress hignore h hj
      | succ j ihj =>
        by_cases hhead : answers.head.bytes = []
        · have hnone : n + 1 - (answers.head.bytes.take (min rxTransferBufferLen (n + 1))).length
              = n + 1 := by
            rw [hhead, List.take_nil, List.length_nil, Nat.sub_zero]
          have htail : ¬Stalls (n + 1) answers.tail := fun hstalls ↦
            h (stalls_of_tail (by rwa [hnone]))
          obtain ⟨k, d', hk⟩ := @ihj (d.afterAnswer react (n + 1) answers.head) answers.tail
            (by rw [ignoring_afterAnswer, hignore]) htail hj
          exact ⟨k + 1, d', by rw [loopRx?_take_succ react hignore, hnone, hk]⟩
        · exact hprogress hignore h hhead

/-- **`loop_rx` ends exactly when the stream does not fall silent** before it has delivered what it
announced; what it has read, it has then passed to the decoder. -/
theorem loopRxEnds_iff {d : Device cfg H} (hignore : d.ignoreRxForTesting = false) (available : ℤ)
    (answers : Stream' ReadAnswer) :
    LoopRxEnds react d available answers ↔ ¬Stalls (available % 2 ^ 16).toNat answers := by
  constructor
  · rintro ⟨m, d', hm, -⟩ ⟨k, hlt, hsilent⟩
    have hall := le_delivered_of_loopRx? react hignore hm
    have hle := delivered_take_le hsilent m
    omega
  · intro h
    obtain ⟨k, d', hk⟩ := exists_loopRx?_of_not_stalls react hignore h
    exact ⟨k, d', hk, passes_loopRx? react hignore hk⟩

/-- Two bytes announced, the first read empty, then one flag byte for each read. -/
theorem loopRxEnds_shortReads :
    LoopRxEnds idle begunClient 2
      (Stream'.cons ⟨1000, []⟩ (Stream'.const ⟨0, [packetFlag]⟩)) := by
  refine (loopRxEnds_iff idle rfl 2 _).mpr ?_
  rintro ⟨k, -, hsilent⟩
  have hnone : [packetFlag] = [] := hsilent (k + 1) (Nat.le_succ k)
  exact absurd hnone (List.cons_ne_nil _ _)

/-- A stream that announces a byte and then returns nothing keeps the loop going. -/
theorem not_loopRxEnds_silent :
    ¬LoopRxEnds idle begunClient 1 (Stream'.const ⟨1000, []⟩) := by
  rintro ⟨k, d', hk, -⟩
  have hall : 1 ≤ delivered ((Stream'.const ⟨1000, []⟩).take k) :=
    le_delivered_of_loopRx? idle (rfl : begunClient.ignoreRxForTesting = false) hk
  have hle := @delivered_take_le (Stream'.const ⟨1000, []⟩) 0 (fun _ _ ↦ rfl) k
  exact absurd (hall.trans hle) (by decide)

end Device

end SerialPackets
