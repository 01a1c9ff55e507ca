import SerialPackets.Codec.Malformed
import SerialPackets.Codec.Packets

/-!
# Rejected frames

The decoder logs an error for a frame that it does not accept: when it gives up in the middle of the
frame, or at the flag that ends it. What it logs is a function of the bytes (`rejections`), and no
frame is dropped without a word: between two flags there is a packet or an error, or nothing but an
escape (`frame_cases`).

The converse fails. A decoder that has given up still collects bytes, so that it can log more than
one error before the next flag.
-/

namespace SerialPackets

open Framing FixedArray

variable {cfg : Config}

/-! ## What is logged -/

/-- What the decoder logs at a byte. -/
def rejectionAt (cfg : Config) (s : Receiver UInt8) (b : UInt8) : Option Report :=
  if b = packetFlag then
    (Receiver.closes hdlc s b).bind fun body ↦
      match processPacket? (fun i ↦ body[i]?) body.length with
      | some (.error report) => some report
      | _ => none
  else if cfg.maxPacketLen ≤ s.body.length then some .packetOverrun
  else if s.pending = true ∧ hdlc.special (hdlc.mask b) = false then some (.badEscape (b ^^^ 0x20))
  else none

/-- What the decoder logs over a byte sequence. -/
def rejections (cfg : Config) : Receiver UInt8 → List UInt8 → List Report
  | _, [] => []
  | s, b :: bytes =>
    (rejectionAt cfg s b).toList ++ rejections cfg (Receiver.next hdlc cfg.maxPacketLen s b) bytes

theorem rejections_append (s : Receiver UInt8) (as bs : List UInt8) :
    rejections cfg s (as ++ bs)
      = rejections cfg s as ++ rejections cfg (Receiver.run hdlc cfg.maxPacketLen s as) bs := by
  induction as generalizing s with
  | nil => rfl
  | cons a as ih => rw [List.cons_append, rejections, ih, rejections, List.append_assoc,
      Receiver.run_cons]

theorem rejections_singleton (s : Receiver UInt8) (b : UInt8) :
    rejections cfg s [b] = (rejectionAt cfg s b).toList := List.append_nil _

/-- **What the decoder logs** at a byte. -/
theorem SerialPacketsDecoder.report_decodeNextByte (d : SerialPacketsDecoder cfg) (b : UInt8) :
    (d.decodeNextByte b).report = rejectionAt cfg d.receiver b := by
  suffices hmap : (d.toDecoderState.decodeNextByte? b).map DecodeResult.report
      = some (rejectionAt cfg d.receiver b) by
    obtain ⟨r, hr, hreport⟩ := Option.map_eq_some_iff.mp hmap
    rw [decodeNextByte]
    dsimp only
    rw [← hreport]
    congr 1
    simp [hr]
  have hlen : d.receiver.body.length = d.packetLen := length_filled d.packetLen_le
  have happend (c : UInt8) (f : DecoderState cfg → DecoderState cfg)
      (hlt : d.packetLen < cfg.maxPacketLen) :
      ((d.append? c).map fun d ↦ (⟨false, none, f d⟩ : DecodeResult _)).map DecodeResult.report
        = some none := by
    obtain ⟨e, he, -⟩ := DecoderState.append?_of_lt d.toDecoderState c hlt
    rw [he]
    rfl
  rw [DecoderState.decodeNextByte?, rejectionAt, hlen]
  -- the branches of `decode_next_byte`, in the order of the source
  by_cases hb : b = packetFlag
  · rw [if_pos hb, hb]
    by_cases hin : d.inPacket = false
    · have hclosed : Receiver.closes hdlc d.receiver packetFlag = none := by
        simp [Receiver.closes, DecoderState.receiver, hin]
      rw [if_pos ⟨hin, rfl⟩, hclosed]
      rfl
    · have hclosed : Receiver.closes hdlc d.receiver packetFlag
          = some (filled d.packetBuffer d.packetLen) := by
        simp [Receiver.closes, DecoderState.receiver, hin]
      obtain ⟨o, ho, hbuffer⟩ := DecoderState.processPacket?_filled d.packetLen_le
      rw [if_neg fun h ↦ hin h.1, if_pos rfl, DecoderState.processPacket?, hbuffer, hclosed,
        Option.bind_some, length_filled d.packetLen_le, ho]
      rcases o with _ | report | ⟨m, payload⟩ <;> rfl
  rw [if_neg fun h ↦ hb h.2, if_neg hb, if_neg hb]
  by_cases hfull : cfg.maxPacketLen ≤ d.packetLen
  · rw [if_pos hfull, if_pos hfull]
    rfl
  rw [if_neg hfull, if_neg hfull]
  have hlt := Nat.lt_of_not_le hfull
  have hpend : d.receiver.pending = d.pendingEscape := rfl
  rw [hpend]
  by_cases hesc : d.pendingEscape = true
  · rw [if_pos hesc]
    by_cases hbad : b ^^^ 0x20 ≠ packetFlag ∧ b ^^^ 0x20 ≠ packetEsc
    · have hspecial : hdlc.special (hdlc.mask b) = false :=
        hdlc_special_eq_false_iff.mpr (not_or.mpr hbad)
      refine Eq.trans ?_ (congrArg some (if_pos ⟨hesc, hspecial⟩).symm)
      dsimp only
      rw [if_pos hbad]
      rfl
    · have hspecial : hdlc.special (hdlc.mask b) = true :=
        hdlc_special_iff.mpr (by rwa [← not_or, not_not] at hbad)
      have hnone : ¬(d.pendingEscape = true ∧ hdlc.special (hdlc.mask b) = false) :=
        fun h ↦ Bool.false_ne_true (h.2.symm.trans hspecial)
      refine Eq.trans ?_ (congrArg some (if_neg hnone).symm)
      dsimp only
      rw [if_neg hbad]
      exact happend _ _ hlt
  · have hnone : ¬(d.pendingEscape = true ∧ hdlc.special (hdlc.mask b) = false) :=
      fun h ↦ hesc h.1
    refine Eq.trans ?_ (congrArg some (if_neg hnone).symm)
    rw [if_neg hesc]
    split
    · rfl
    · exact happend b id hlt

/-! ## Inside a frame -/

private theorem rejectionAt_eq_none_iff {s : Receiver UInt8} {b : UInt8} (hb : b ≠ packetFlag)
    (hs : s.inFrame = true) :
    rejectionAt cfg s b = none ↔ (Receiver.next hdlc cfg.maxPacketLen s b).inFrame = true := by
  rw [rejectionAt, if_neg hb, Receiver.next_of_ne hb, Receiver.push]
  by_cases hfull : cfg.maxPacketLen ≤ s.body.length
  · rw [if_pos hfull, if_pos hfull]
    exact iff_of_false (Option.some_ne_none _) Bool.false_ne_true
  rw [if_neg hfull, if_neg hfull]
  by_cases hpend : s.pending = true
  · rw [if_pos hpend]
    by_cases hspecial : hdlc.special (hdlc.mask b) = true
    · rw [if_pos hspecial, if_neg fun h ↦ Bool.false_ne_true (h.2.symm.trans hspecial)]
      exact iff_of_true rfl hs
    · rw [if_neg hspecial, if_pos ⟨hpend, Bool.not_eq_true _ ▸ hspecial⟩]
      exact iff_of_false (Option.some_ne_none _) Bool.false_ne_true
  · rw [if_neg hpend, if_neg fun h ↦ hpend h.1]
    refine iff_of_true rfl ?_
    split <;> exact hs

private theorem rejections_eq_nil_iff {segment : List UInt8} (hseg : packetFlag ∉ segment) :
    rejections cfg .opened segment = [] ↔
      (Receiver.run hdlc cfg.maxPacketLen .opened segment).inFrame = true := by
  induction segment using List.reverseRecOn with
  | nil => exact iff_of_true rfl rfl
  | append_singleton segment b ih =>
    rw [List.mem_append, not_or, List.mem_singleton] at hseg
    have hb : b ≠ packetFlag := Ne.symm hseg.2
    rw [rejections_append, rejections_singleton, List.append_eq_nil_iff, ih hseg.1,
      Option.toList_eq_nil_iff, Receiver.run_append, Receiver.run_cons, Receiver.run_nil]
    set s := Receiver.run hdlc cfg.maxPacketLen .opened segment
    constructor
    · rintro ⟨hs, hnone⟩
      exact (rejectionAt_eq_none_iff hb hs).mp hnone
    · intro hnext
      have hs : s.inFrame = true := by
        rw [Receiver.next_of_ne hb] at hnext
        exact Receiver.push_inFrame hnext
      exact ⟨hs, (rejectionAt_eq_none_iff hb hs).mpr hnext⟩

private theorem decodeByType?_ne_nothing (load : ℕ → Option UInt8) (len : ℕ) :
    decodeByType? load len ≠ some .nothing := by
  have hid (tooShort : Report) (metadata : UInt32 → UInt8 → DecodedPacketMetadata) :
      decodeWithCmdId? load len tooShort metadata ≠ some .nothing := by
    rw [decodeWithCmdId?]
    split
    · simp
    · simp [Option.bind_eq_some_iff]
  rw [decodeByType?, Option.bind_eq_bind, Ne, Option.bind_eq_some_iff]
  rintro ⟨packetType, -, h⟩
  split at h
  · exact hid _ _ h
  split at h
  · exact hid _ _ h
  split at h
  · split at h
    · simp at h
    · simp [Option.bind_eq_some_iff] at h
  · simp at h

private theorem processPacket?_ne_nothing (load : ℕ → Option UInt8) {len : ℕ} (hlen : len ≠ 0) :
    processPacket? load len ≠ some .nothing := by
  rw [processPacket?, if_neg hlen]
  split
  · simp
  · simp only [Option.bind_eq_bind, Ne, Option.bind_eq_some_iff]
    rintro ⟨crcIndex, -, packetCrc, -, covered, -, h⟩
    split at h
    · simp at h
    · exact decodeByType?_ne_nothing load len h

theorem closing_cases {body : List UInt8} {s : Receiver UInt8}
    (h : Receiver.closes hdlc s packetFlag = some body) :
    (∃ p, packetOf cfg body = some p ∧ rejectionAt cfg s packetFlag = none) ∨
      packetOf cfg body = none ∧ rejectionAt cfg s packetFlag ≠ none ∧ body ≠ [] ∨
      body = [] ∧ rejectionAt cfg s packetFlag = none := by
  rw [rejectionAt, if_pos rfl, h, Option.bind_some, packetOf]
  by_cases hbody : body = []
  · subst hbody
    exact Or.inr (Or.inr ⟨rfl, rfl⟩)
  obtain ⟨o, ho, -⟩ := processPacket?_spec body
  rw [ho]
  rcases o with _ | report | ⟨m, payload⟩
  · -- nothing is found in an empty frame only
    exact absurd ho (processPacket?_ne_nothing _ (by simpa using hbody))
  · exact Or.inr (Or.inl ⟨rfl, Option.some_ne_none _, hbody⟩)
  · exact Or.inl ⟨_, rfl, rfl⟩

/-- **No frame is dropped without a word.** A segment between two flags is a packet, or an error is
logged for it, or it is empty or a lone escape, and then nothing happens. -/
theorem frame_cases {segment : List UInt8} (hseg : packetFlag ∉ segment) :
    (∃ p, decodedPackets cfg .opened (segment ++ [packetFlag]) = [p] ∧
        rejections cfg .opened (segment ++ [packetFlag]) = []) ∨
      decodedPackets cfg .opened (segment ++ [packetFlag]) = [] ∧
        rejections cfg .opened (segment ++ [packetFlag]) ≠ [] ∨
      (segment = [] ∨ segment = [packetEsc]) ∧
        decodedPackets cfg .opened (segment ++ [packetFlag]) = [] ∧
        rejections cfg .opened (segment ++ [packetFlag]) = [] := by
  set s := Receiver.run hdlc cfg.maxPacketLen .opened segment with hs
  have hpackets : decodedPackets cfg .opened (segment ++ [packetFlag])
      = ((Receiver.closes hdlc s packetFlag).bind (packetOf cfg)).toList := by
    rw [decodedPackets_append, decodedPackets_of_flag_free hseg, List.nil_append,
      decodedPackets_singleton]
  have hnil : rejections cfg .opened (segment ++ [packetFlag]) = [] ↔
      s.inFrame = true ∧ rejectionAt cfg s packetFlag = none := by
    rw [rejections_append, rejections_singleton, List.append_eq_nil_iff, Option.toList_eq_nil_iff,
      rejections_eq_nil_iff hseg]
  rw [hpackets, Ne, hnil]
  by_cases hin : s.inFrame = true
  · have hclosed : Receiver.closes hdlc s packetFlag = some s.body :=
      Receiver.closes_eq_some_iff.mpr ⟨rfl, hin, rfl⟩
    rw [hclosed, Option.bind_some]
    rcases @closing_cases cfg _ _ hclosed with ⟨p, hp, hnone⟩ | ⟨hp, hsome, -⟩ | ⟨hbody, hnone⟩
    · exact Or.inl ⟨p, by rw [hp]; rfl, hin, hnone⟩
    · exact Or.inr (Or.inl ⟨by rw [hp]; rfl, fun h ↦ hsome h.2⟩)
    · refine Or.inr (Or.inr ⟨?_, by rw [hbody, packetOf_nil]; rfl, hin, hnone⟩)
      obtain ⟨hspells, -⟩ := Receiver.spells_run hseg hin
      rw [← hs, hbody, Receiver.Spells, Stuffing.stuff_nil, List.nil_append] at hspells
      rw [hspells]
      split
      · exact Or.inr rfl
      · exact Or.inl rfl
  · have hclosed : Receiver.closes hdlc s packetFlag = none := if_neg fun h ↦ hin h.2
    rw [hclosed]
    exact Or.inr (Or.inl ⟨rfl, fun h ↦ hin h.1⟩)

/-- A segment that is neither empty nor a lone escape. -/
def IsFrame (segment : List UInt8) : Prop := segment ≠ [] ∧ segment ≠ [packetEsc]

instance : DecidablePred IsFrame := fun segment ↦
  inferInstanceAs (Decidable (segment ≠ [] ∧ segment ≠ [packetEsc]))

theorem length_filter_isFrame_le {segments : List (List UInt8)}
    (hfree : ∀ segment ∈ segments, packetFlag ∉ segment) :
    (segments.filter fun segment ↦ IsFrame segment).length
      ≤ (decodedPackets cfg .opened (segments.flatMap (· ++ [packetFlag]))).length
        + (rejections cfg .opened (segments.flatMap (· ++ [packetFlag]))).length := by
  induction segments with
  | nil => exact Nat.zero_le _
  | cons segment segments ih =>
    rw [List.forall_mem_cons] at hfree
    have hopened : Receiver.run hdlc cfg.maxPacketLen .opened (segment ++ [packetFlag]) = .opened :=
      Receiver.run_concat_flag (S := hdlc) _ segment
    rw [List.flatMap_cons, decodedPackets_append, rejections_append, hopened, List.length_append,
      List.length_append]
    have hrest := ih hfree.2
    have hone : (if IsFrame segment then 1 else 0)
        ≤ (decodedPackets cfg .opened (segment ++ [packetFlag])).length
          + (rejections cfg .opened (segment ++ [packetFlag])).length := by
      rcases @frame_cases cfg _ hfree.1 with ⟨p, hp, -⟩ | ⟨-, hne⟩ | ⟨hempty, -⟩
      · rw [hp, List.length_singleton]
        split <;> omega
      · have hpos := List.length_pos_of_ne_nil hne
        split <;> omega
      · rw [if_neg fun h ↦ hempty.elim h.1 h.2]
        exact Nat.zero_le _
    rw [List.filter_cons]
    by_cases hframe : IsFrame segment
    · rw [if_pos hframe] at hone
      rw [if_pos (decide_eq_true hframe), List.length_cons]
      omega
    · rw [if_neg (by simpa using hframe)]
      omega

/-! ## Over the bytes of a decoder -/

/-- What a decoder logs over a byte sequence. -/
def SerialPacketsDecoder.errors (d : SerialPacketsDecoder cfg) : List UInt8 → List Report
  | [] => []
  | b :: bytes =>
    (d.decodeNextByte b).report.toList ++ (d.decodeNextByte b).decoder.errors bytes

private theorem SerialPacketsDecoder.errors_eq (d : SerialPacketsDecoder cfg) (bytes : List UInt8) :
    d.errors bytes = rejections cfg d.receiver bytes := by
  induction bytes generalizing d with
  | nil => rfl
  | cons b bytes ih =>
    rw [errors, ih, report_decodeNextByte, (d.decodeNextByte_spec b).1, rejections]

/-- **Every frame gets a verdict.** Whatever a decoder has seen before its last flag, the bytes up
to the next flag make it report one packet and log nothing, or report nothing and log at least one
error. The only bytes that pass without a trace are none at all and a lone escape. -/
theorem SerialPacketsDecoder.verdict_of_frame (d : SerialPacketsDecoder cfg)
    (hopened : d.receiver = .opened) {segment : List UInt8} (hseg : packetFlag ∉ segment) :
    (∃ p, (d.reports (segment ++ [packetFlag])).filterMap id = [p] ∧
        d.errors (segment ++ [packetFlag]) = []) ∨
      (d.reports (segment ++ [packetFlag])).filterMap id = [] ∧
        d.errors (segment ++ [packetFlag]) ≠ [] ∨
      (segment = [] ∨ segment = [packetEsc]) ∧
        (d.reports (segment ++ [packetFlag])).filterMap id = [] ∧
        d.errors (segment ++ [packetFlag]) = [] := by
  rw [d.filterMap_reports, d.errors_eq, hopened]
  exact frame_cases hseg

/-- A frame with a wrong byte after an escape, behind some noise. -/
theorem SerialPacketsDecoder.verdict_of_frame_badEscape :
    let d : SerialPacketsDecoder Config.default :=
      (SerialPacketsDecoder.fresh (Vector.replicate _ 0) (.message 0) (Vector.replicate _ 0)).feed
        [1, 2, packetFlag]
    (d.reports ([2, packetEsc, 7] ++ [packetFlag])).filterMap id = [] ∧
      d.errors ([2, packetEsc, 7] ++ [packetFlag]) ≠ [] := by
  intro d
  rcases @verdict_of_frame Config.default d rfl [2, packetEsc, 7] (by decide) with
    ⟨p, -, hnone⟩ | h | ⟨hempty, -⟩
  · exact absurd hnone (by decide +kernel)
  · exact h
  · exact absurd hempty (by decide)

end SerialPackets
