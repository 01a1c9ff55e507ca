import SerialPackets.Lib.BoundedQueue
import SerialPackets.Model.Data

/-!
# Byte buffers as queues

`SerialPacketsBuffer<N>` is a bounded queue of bytes with sticky errors: writing a value puts in its
big-endian encoding, reading one takes as many bytes as its type is long, and clearing and
`reset_reading` are the two ways back. The four writers and the four readers are treated alike
through the typed values they write and return (`Value`, `Kind`).

Each operation is that of the queue on what the buffer shows (`queue_apply`), so the laws of the
queue hold of the buffer over any sequence of operations (`queueLaws_run`), and typed values that
fit are read back as they were written (`readAll_writeAll`).
-/

namespace SerialPackets

/-- A typed value that can be written or is returned by a read. -/
inductive Value
  | uint8 (v : UInt8)
  | uint16 (v : UInt16)
  | uint32 (v : UInt32)
  | bytes (bs : List UInt8)

/-- What a read asks for. -/
inductive Kind
  | uint8
  | uint16
  | uint32
  | bytes (count : ℕ)

namespace Kind

/-- The number of bytes a read asks for. -/
def width : Kind → ℕ
  | uint8 => 1
  | uint16 => 2
  | uint32 => 4
  | bytes count => count

/-- The value with these bytes. -/
def value : Kind → List UInt8 → Value
  | uint8, bs => .uint8 (bs.getD 0 0)
  | uint16, bs => .uint16 (BigEndian.word16 (bs.getD 0 0) (bs.getD 1 0))
  | uint32, bs =>
    .uint32 (BigEndian.word32 (bs.getD 0 0) (bs.getD 1 0) (bs.getD 2 0) (bs.getD 3 0))
  | bytes _, bs => .bytes bs

end Kind

namespace Value

/-- The big-endian encoding. -/
def encoding : Value → List UInt8
  | uint8 v => [v]
  | uint16 v => BigEndian.bytes16 v
  | uint32 v => BigEndian.bytes32 v
  | bytes bs => bs

/-- The read that returns a value of this type. -/
def kind : Value → Kind
  | uint8 _ => .uint8
  | uint16 _ => .uint16
  | uint32 _ => .uint32
  | bytes bs => .bytes bs.length

private theorem length_encoding (v : Value) : v.encoding.length = v.kind.width := by
  rcases v with v | v | v | bs <;> rfl

private theorem value_encoding (v : Value) : v.kind.value v.encoding = v := by
  rcases v with v | v | v | bs
  · rfl
  · exact congrArg uint16 (BigEndian.word16_bytes16 v)
  · exact congrArg uint32 (BigEndian.word32_bytes32 v)
  · rfl

private theorem encoding_value {k : Kind} {bs : List UInt8} (h : bs.length = k.width) :
    (k.value bs).encoding = bs := by
  rcases k with _ | _ | _ | count
  · match bs, h with
    | [b₀], _ => rfl
  · match bs, h with
    | [b₁, b₀], _ => exact BigEndian.bytes16_word16 b₁ b₀
  · match bs, h with
    | [b₃, b₂, b₁, b₀], _ => exact BigEndian.bytes32_word32 b₃ b₂ b₁ b₀
  · rfl

end Value

namespace SerialPacketsBuffer

variable {N : ℕ}

/-! ## The operations -/

/-- The writers. -/
def write (b : SerialPacketsBuffer N) : Value → SerialPacketsBuffer N
  | .uint8 v => b.writeUint8 v
  | .uint16 v => b.writeUint16 v
  | .uint32 v => b.writeUint32 v
  | .bytes bs => b.writeBytes bs

/-- The readers. -/
def read (b : SerialPacketsBuffer N) : Kind → Value × SerialPacketsBuffer N
  | .uint8 => (.uint8 b.readUint8.1, b.readUint8.2)
  | .uint16 => (.uint16 b.readUint16.1, b.readUint16.2)
  | .uint32 => (.uint32 b.readUint32.1, b.readUint32.2)
  | .bytes count => (.bytes (b.readBytes count).1, (b.readBytes count).2)

/-- One call of a member function. -/
inductive Op
  | write (v : Value)
  | read (k : Kind)
  | skipBytes (count : ℕ)
  | resetReading
  | clear

/-- The buffer after a call. -/
def apply (b : SerialPacketsBuffer N) : Op → SerialPacketsBuffer N
  | .write v => b.write v
  | .read k => (b.read k).2
  | .skipBytes count => b.skipBytes count
  | .resetReading => b.resetReading
  | .clear => b.clear

/-- The buffer after a sequence of calls. -/
def run (b : SerialPacketsBuffer N) (ops : List Op) : SerialPacketsBuffer N := ops.foldl apply b

/-- The writers differ only in the encoding. -/
theorem write_eq (b : SerialPacketsBuffer N) (v : Value) : b.write v = b.writeBytes v.encoding := by
  rcases v with v | v | v | bs <;> rfl

private theorem read_eq (b : SerialPacketsBuffer N) (k : Kind) :
    b.read k = (k.value (b.readBytes k.width).1, (b.readBytes k.width).2) := by
  rcases k with _ | _ | _ | count <;> rfl

/-! ## The queue -/

/-- What the buffer shows. -/
def queue (b : SerialPacketsBuffer N) : BoundedQueue UInt8 :=
  ⟨b.contents, b.bytesRead, b.hadWriteErrors, b.hadReadErrors⟩

/-- What a call does to the queue. -/
def Op.queueOp : Op → BoundedQueue.Op UInt8
  | .write v => .put v.encoding
  | .read k => .take k.width
  | .skipBytes count => .take count
  | .resetReading => .rewind
  | .clear => .clear

private theorem queue_writeBytes (b : SerialPacketsBuffer N) (bs : List UInt8) :
    (b.writeBytes bs).queue = b.queue.put N bs := by
  have hcontents := b.length_contents
  by_cases hfit : b.hadWriteErrors = true ∨ N < b.size + bs.length
  · rw [writeBytes_of_not_fit hfit, BoundedQueue.put_of_not_fit (by rwa [queue, hcontents])]
    rfl
  · rw [not_or, Bool.not_eq_true, Nat.not_lt] at hfit
    rw [BoundedQueue.put_of_fit hfit.1 (by rw [queue, hcontents]; exact hfit.2), queue,
      contents_writeBytes hfit.1 hfit.2, bytesRead_writeBytes, hadReadErrors_writeBytes,
      hadWriteErrors_writeBytes hfit.1 hfit.2, queue, hfit.1]

private theorem readBytes_of_too_many {b : SerialPacketsBuffer N} {count : ℕ}
    (h : b.hadReadErrors = true ∨ b.size < b.bytesRead + count) :
    b.readBytes count = (List.replicate count 0, { b with hadReadErrors := true }) := by
  have hread := b.bytesRead_le
  rw [readBytes, dif_pos]
  rw [unreadBytes]
  exact h.imp_right fun hlt ↦ by omega

private theorem readBytes_of_le {b : SerialPacketsBuffer N} {count : ℕ}
    (herr : b.hadReadErrors = false) (h : b.bytesRead + count ≤ b.size) :
    b.readBytes count = ((b.contents.drop b.bytesRead).take count,
      { b with bytesRead := b.bytesRead + count, bytesRead_le := h }) := by
  have hleft : ¬(b.hadReadErrors = true ∨ count > b.unreadBytes) := by
    rw [unreadBytes, herr]
    simp only [Bool.false_eq_true, false_or]
    omega
  rw [readBytes, dif_neg hleft]

private theorem queue_readBytes (b : SerialPacketsBuffer N) (count : ℕ) :
    (b.readBytes count).2.queue = b.queue.take count := by
  have hcontents := b.length_contents
  by_cases hleft : b.hadReadErrors = true ∨ b.size < b.bytesRead + count
  · rw [readBytes_of_too_many hleft, BoundedQueue.take_of_too_many (by rwa [queue, hcontents])]
    rfl
  · rw [not_or, Bool.not_eq_true, Nat.not_lt] at hleft
    rw [readBytes_of_le hleft.1 hleft.2,
      BoundedQueue.take_of_le hleft.1 (by rw [queue, hcontents]; exact hleft.2)]
    rfl

/-- **Each call is an operation of the queue.** -/
theorem queue_apply (b : SerialPacketsBuffer N) (op : Op) :
    (b.apply op).queue = b.queue.step N op.queueOp := by
  rcases op with v | k | count | _ | _
  · rw [apply, write_eq]
    exact queue_writeBytes b v.encoding
  · rw [apply, read_eq]
    exact queue_readBytes b k.width
  · exact queue_readBytes b count
  · rfl
  · rw [apply, queue, contents_clear]
    rfl

theorem run_concat (b : SerialPacketsBuffer N) (ops : List Op) (op : Op) :
    b.run (ops ++ [op]) = (b.run ops).apply op := by
  rw [run, run, List.foldl_append, List.foldl_cons, List.foldl_nil]

theorem run_append (b : SerialPacketsBuffer N) (ops ops' : List Op) :
    b.run (ops ++ ops') = (b.run ops).run ops' := List.foldl_append

/-- **A sequence of calls is a run of the queue.** -/
theorem queue_run (b : SerialPacketsBuffer N) (ops : List Op) :
    (b.run ops).queue = b.queue.run N (ops.map Op.queueOp) := by
  induction ops using List.reverseRecOn with
  | nil => rfl
  | append_singleton ops op ih =>
    rw [run_concat, queue_apply, ih, List.map_append, List.map_singleton, BoundedQueue.run_concat]

/-! ## The laws of the queue, for the buffer -/

/-- How many bytes a call asks for, if it reads or skips. -/
def Op.asks? : Op → Option ℕ
  | .read k => some k.width
  | .skipBytes count => some count
  | _ => none

/-- How many bytes the calls ask for. -/
def asked (ops : List Op) : ℕ := (ops.map fun op ↦ op.asks?.getD 0).sum

/-- What the calls write, one encoding for each. -/
def encodings (ops : List Op) : List (List UInt8) :=
  ops.filterMap fun op ↦ match op with
    | .write v => some v.encoding
    | _ => none

/-- A bounded first-in first-out queue with sticky errors, after the calls `ops` on a new buffer. -/
structure QueueLaws (new : SerialPacketsBuffer N) (ops : List Op) : Prop where
  bytesRead_le : (new.run ops).bytesRead ≤ (new.run ops).size
  size_le : (new.run ops).size ≤ N
  /-- The contents are the encodings written since the last `clear`, up to the first that did not
  fit, and the write flag tells whether there was one. -/
  contents : ∀ before recent, ops = before ++ recent →
    before = [] ∨ before.getLast? = some .clear → .clear ∉ recent →
      ∃ kept, UpToFirst (fun earlier bs ↦ N < earlier.flatten.length + bs.length)
          (encodings recent) kept ∧
        (new.run ops).contents = kept.flatten ∧
        ((new.run ops).hadWriteErrors = true ↔ kept ≠ encodings recent)
  /-- The cursor has moved over the bytes asked for since the last `clear` or `resetReading`, up to
  the first call that asked for more than was left then, and the read flag tells whether there was
  one. -/
  cursor : ∀ before recent, ops = before ++ recent →
    before = [] ∨ before.getLast? = some .clear ∨ before.getLast? = some .resetReading →
      .clear ∉ recent → .resetReading ∉ recent →
        ∃ served, UpToFirst (fun earlier op ↦ ∃ count, op.asks? = some count ∧
            (new.run (before ++ earlier)).size < asked earlier + count) recent served ∧
          (new.run ops).bytesRead = asked served ∧
          ((new.run ops).hadReadErrors = true ↔ served ≠ recent)
  /-- A read returns the value of the next bytes; after an error, or where too few are left, it
  returns zeros, does not move the cursor and leaves the flag set. -/
  returned : ∀ k, ((new.run ops).read k).1.kind = k ∧
    if (new.run ops).hadReadErrors = true ∨ (new.run ops).unreadBytes < k.width then
      ((new.run ops).read k).1.encoding = List.replicate k.width 0 ∧
        ((new.run ops).read k).2.bytesRead = (new.run ops).bytesRead ∧
        ((new.run ops).read k).2.hadReadErrors = true
    else
      ((new.run ops).read k).1.encoding
          = ((new.run ops).contents.drop (new.run ops).bytesRead).take k.width ∧
        ((new.run ops).read k).2.bytesRead = (new.run ops).bytesRead + k.width ∧
        ((new.run ops).read k).2.hadReadErrors = false
  /-- Reads do not touch the writing side. -/
  reads : ∀ op, op.asks? ≠ none ∨ op = .resetReading →
    ((new.run ops).apply op).contents = (new.run ops).contents ∧
      ((new.run ops).apply op).size = (new.run ops).size ∧
      ((new.run ops).apply op).hadWriteErrors = (new.run ops).hadWriteErrors
  /-- Writes do not touch the reading side. -/
  writes : ∀ v, ((new.run ops).apply (.write v)).bytesRead = (new.run ops).bytesRead ∧
    ((new.run ops).apply (.write v)).hadReadErrors = (new.run ops).hadReadErrors

private theorem puts_map_queueOp (ops : List Op) :
    BoundedQueue.puts (ops.map Op.queueOp) = encodings ops := by
  rw [BoundedQueue.puts, encodings, List.filterMap_map]
  refine List.filterMap_congr fun op _ ↦ ?_
  rcases op with v | k | count | _ | _ <;> rfl

private theorem asked_map_queueOp (ops : List Op) :
    BoundedQueue.asked (ops.map Op.queueOp) = asked ops := by
  rw [BoundedQueue.asked, asked, List.map_map]
  refine congrArg List.sum (List.map_congr_left fun op _ ↦ ?_)
  rcases op with v | k | count | _ | _ <;> rfl

private theorem queueOp_eq_clear_iff {op : Op} : op.queueOp = .clear ↔ op = .clear := by
  rcases op with v | k | count | _ | _ <;> simp [Op.queueOp]

private theorem queueOp_eq_rewind_iff {op : Op} : op.queueOp = .rewind ↔ op = .resetReading := by
  rcases op with v | k | count | _ | _ <;> simp [Op.queueOp]

private theorem queueOp_eq_take_iff {op : Op} {count : ℕ} :
    op.queueOp = .take count ↔ op.asks? = some count := by
  rcases op with v | k | count | _ | _ <;> simp [Op.queueOp, Op.asks?]

variable {b : SerialPacketsBuffer N} {ops : List Op}

private theorem run_contents (hempty : b.contents = []) (hflag : b.hadWriteErrors = false)
    (hclear : .clear ∉ ops) :
    ∃ kept, UpToFirst (fun earlier bs ↦ N < earlier.flatten.length + bs.length)
        (encodings ops) kept ∧
      (b.run ops).contents = kept.flatten ∧
      ((b.run ops).hadWriteErrors = true ↔ kept ≠ encodings ops) := by
  have hqueue : BoundedQueue.Op.clear ∉ ops.map Op.queueOp := by
    rintro h
    obtain ⟨op, hop, heq⟩ := List.mem_map.mp h
    exact hclear (queueOp_eq_clear_iff.mp heq ▸ hop)
  obtain ⟨kept, hfirst, hitems, hover⟩ :=
    @BoundedQueue.run_puts _ N b.queue hempty hflag (ops.map Op.queueOp) hqueue
  rw [← queue_run] at hitems hover
  rw [puts_map_queueOp] at hfirst hover
  exact ⟨kept, hfirst, hitems, hover⟩

private theorem run_bytesRead (hcursor : b.bytesRead = 0) (hflag : b.hadReadErrors = false)
    (hclear : .clear ∉ ops) (hreset : .resetReading ∉ ops) :
    ∃ served, UpToFirst (fun earlier op ↦ ∃ count, op.asks? = some count ∧
        (b.run earlier).size < asked earlier + count) ops served ∧
      (b.run ops).bytesRead = asked served ∧
      ((b.run ops).hadReadErrors = true ↔ served ≠ ops) := by
  have hqueue : BoundedQueue.Op.clear ∉ ops.map Op.queueOp := by
    rintro h
    obtain ⟨op, hop, heq⟩ := List.mem_map.mp h
    exact hclear (queueOp_eq_clear_iff.mp heq ▸ hop)
  have hqueue' : BoundedQueue.Op.rewind ∉ ops.map Op.queueOp := by
    rintro h
    obtain ⟨op, hop, heq⟩ := List.mem_map.mp h
    exact hreset (queueOp_eq_rewind_iff.mp heq ▸ hop)
  obtain ⟨_, hfirst, hmoved, hunder⟩ :=
    @BoundedQueue.run_takes _ N b.queue hcursor hflag (ops.map Op.queueOp) hqueue hqueue'
  obtain ⟨served, rfl, hall, hserved⟩ := hfirst.exists_of_map
  rw [← queue_run] at hmoved hunder
  rw [asked_map_queueOp] at hmoved
  refine ⟨served, ?_, hmoved, hunder.trans (not_congr hall.symm)⟩
  have hsize (c : SerialPacketsBuffer N) : c.queue.items.length = c.size := c.length_contents
  simpa only [queueOp_eq_take_iff, ← queue_run, asked_map_queueOp, hsize] using hserved

private theorem length_readBytes (b : SerialPacketsBuffer N) (count : ℕ) :
    (b.readBytes count).1.length = count := by
  by_cases hleft : b.hadReadErrors = true ∨ b.size < b.bytesRead + count
  · rw [readBytes_of_too_many hleft, List.length_replicate]
  · rw [not_or, Bool.not_eq_true, Nat.not_lt] at hleft
    rw [readBytes_of_le hleft.1 hleft.2, List.length_take, List.length_drop, length_contents]
    omega

private theorem encoding_read (b : SerialPacketsBuffer N) (k : Kind) :
    (b.read k).1.encoding = (b.readBytes k.width).1 := by
  rw [read_eq]
  exact Value.encoding_value (b.length_readBytes k.width)

private theorem kind_read (b : SerialPacketsBuffer N) (k : Kind) : (b.read k).1.kind = k := by
  rcases k with _ | _ | _ | count
  · rfl
  · rfl
  · rfl
  · exact congrArg Kind.bytes (b.length_readBytes count)

private theorem apply_read {op : Op} (hop : op.asks? ≠ none ∨ op = .resetReading) :
    (b.apply op).contents = b.contents ∧ (b.apply op).size = b.size ∧
      (b.apply op).hadWriteErrors = b.hadWriteErrors := by
  have hput (xs : List UInt8) : op.queueOp ≠ .put xs := by
    rintro h
    rcases op with v | k | count | _ | _ <;> simp [Op.queueOp, Op.asks?] at h hop
  have hclear : op.queueOp ≠ .clear := by
    rw [Ne, queueOp_eq_clear_iff]
    rintro rfl
    simp [Op.asks?] at hop
  have hsame : (b.apply op).queue.items = b.queue.items ∧
      (b.apply op).queue.overflow = b.queue.overflow := by
    rw [queue_apply]
    exact BoundedQueue.step_items hput hclear
  have hcontents : (b.apply op).contents = b.contents := hsame.1
  refine ⟨hcontents, ?_, hsame.2⟩
  rw [← length_contents, hcontents, length_contents]

/-- **The buffer obeys the laws of the queue** over every sequence of calls. -/
theorem queueLaws_run (memory : Vector UInt8 N) (ops : List Op) :
    QueueLaws (fresh memory) ops := by
  constructor
  · exact ((fresh memory).run ops).bytesRead_le
  · exact ((fresh memory).run ops).size_le
  · rintro before recent rfl hbefore hclear
    rw [run_append]
    -- since the last `clear`, the buffer is an empty queue that is only put to
    have hstart : ((fresh memory).run before).contents = [] ∧
        ((fresh memory).run before).hadWriteErrors = false := by
      rcases hbefore with rfl | hlast
      · exact ⟨contents_fresh memory, rfl⟩
      · obtain ⟨earlier, rfl⟩ := List.getLast?_eq_some_iff.mp hlast
        rw [run_concat]
        exact ⟨contents_clear _, rfl⟩
    exact run_contents hstart.1 hstart.2 hclear
  · rintro before recent rfl hbefore hclear hreset
    simp only [run_append]
    have hstart : ((fresh memory).run before).bytesRead = 0 ∧
        ((fresh memory).run before).hadReadErrors = false := by
      rcases hbefore with rfl | hlast | hlast
      · exact ⟨rfl, rfl⟩
      · obtain ⟨earlier, rfl⟩ := List.getLast?_eq_some_iff.mp hlast
        rw [run_concat]
        exact ⟨rfl, rfl⟩
      · obtain ⟨earlier, rfl⟩ := List.getLast?_eq_some_iff.mp hlast
        rw [run_concat]
        exact ⟨rfl, rfl⟩
    exact run_bytesRead hstart.1 hstart.2 hclear hreset
  · intro k
    refine ⟨kind_read _ k, ?_⟩
    set b := (fresh memory).run ops
    have hread := b.bytesRead_le
    rw [unreadBytes, encoding_read, read_eq]
    split
    · rename_i hleft
      rw [readBytes_of_too_many (hleft.imp_right fun h ↦ by omega)]
      exact ⟨rfl, rfl, rfl⟩
    · rename_i hleft
      rw [not_or, Bool.not_eq_true] at hleft
      rw [readBytes_of_le hleft.1 (by omega)]
      exact ⟨rfl, rfl, hleft.1⟩
  · intro op hop
    exact apply_read hop
  · intro v
    rw [apply, write_eq, bytesRead_writeBytes, hadReadErrors_writeBytes]
    exact ⟨rfl, rfl⟩

/-! ## Round trip -/

/-- The values written one after the other. -/
def writeAll (b : SerialPacketsBuffer N) (vs : List Value) : SerialPacketsBuffer N :=
  vs.foldl write b

/-- The values returned by reading one after the other. -/
def readAll (b : SerialPacketsBuffer N) : List Kind → List Value × SerialPacketsBuffer N
  | [] => ([], b)
  | k :: kinds =>
    let r := b.read k
    let rest := r.2.readAll kinds
    (r.1 :: rest.1, rest.2)

theorem queue_writeAll (vs : List Value) (herr : b.hadWriteErrors = false)
    (hfit : b.size + (vs.flatMap Value.encoding).length ≤ N) :
    (b.writeAll vs).queue
      = ⟨b.contents ++ vs.flatMap Value.encoding, b.bytesRead, false, b.hadReadErrors⟩ := by
  induction vs generalizing b with
  | nil => rw [writeAll, List.foldl_nil, queue, herr, List.flatMap_nil, List.append_nil]
  | cons v vs ih =>
    rw [List.flatMap_cons, List.length_append] at hfit
    have hv : b.size + v.encoding.length ≤ N := by omega
    rw [writeAll, List.foldl_cons, ← writeAll, write_eq, ih (hadWriteErrors_writeBytes herr hv)]
    · rw [contents_writeBytes herr hv, bytesRead_writeBytes, hadReadErrors_writeBytes,
        List.flatMap_cons, List.append_assoc]
    · rw [size_writeBytes herr hv]
      omega

theorem readAll_kinds (vs : List Value) (herr : b.hadReadErrors = false)
    (hleft : b.contents.drop b.bytesRead = vs.flatMap Value.encoding) :
    ∃ b', b.readAll (vs.map Value.kind) = (vs, b') ∧ b'.allReadOk = true := by
  induction vs generalizing b with
  | nil =>
    refine ⟨b, rfl, ?_⟩
    rw [List.flatMap_nil, List.drop_eq_nil_iff, length_contents] at hleft
    rw [allReadOk, allRead, herr, decide_eq_true hleft]
    rfl
  | cons v vs ih =>
    rw [List.flatMap_cons] at hleft
    have hlen := congrArg List.length hleft
    rw [List.length_drop, length_contents, List.length_append, v.length_encoding] at hlen
    have hread := b.bytesRead_le
    have hv := readBytes_of_le herr (show b.bytesRead + v.kind.width ≤ b.size by omega)
    have hbytes : (b.readBytes v.kind.width).1 = v.encoding := by
      rw [hv, hleft]
      exact List.take_left' v.length_encoding
    have hrest : (b.readBytes v.kind.width).2.contents.drop
        (b.readBytes v.kind.width).2.bytesRead = vs.flatMap Value.encoding := by
      rw [contents_readBytes, hv, ← List.drop_drop, hleft]
      exact List.drop_left' v.length_encoding
    obtain ⟨b', hb', hok⟩ := @ih (b.readBytes v.kind.width).2 (by rw [hv]; exact herr) hrest
    refine ⟨b', ?_, hok⟩
    rw [List.map_cons, readAll, read_eq]
    dsimp only
    rw [hb', hbytes, v.value_encoding]

/-- **A buffer is a bounded queue with sticky errors**, over every sequence of calls on a new one;
and on a cleared one, values that fit are read back as they were written. -/
theorem queueLaws_and_readAll_writeAll (memory : Vector UInt8 N) :
    (∀ ops, QueueLaws (fresh memory) ops) ∧
      ∀ (b : SerialPacketsBuffer N) (vs : List Value), (vs.flatMap Value.encoding).length ≤ N →
        ∃ b', (b.clear.writeAll vs).readAll (vs.map Value.kind) = (vs, b') ∧
          b'.allReadOk = true := by
  refine ⟨queueLaws_run memory, fun b vs hfit ↦ ?_⟩
  have hqueue := queue_writeAll (b := b.clear) vs rfl (by rwa [size_clear, Nat.zero_add])
  have h := BoundedQueue.mk.inj hqueue
  apply readAll_kinds vs
  · exact h.2.2.2
  · rw [h.1, h.2.1, contents_clear]
    rfl

end SerialPacketsBuffer

end SerialPackets
