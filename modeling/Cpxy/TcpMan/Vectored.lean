import Cpxy.TcpMan.CipherStream

/-!
# Vectored writes of the cipher stream

Library `TcpMan`. Source `src/protocol/tcpman/cipher/stream.rs:136–191`. While the cipher
works, every slice is written on its own and the lengths that were taken add up. The loop
goes on to the next slice even if the last one was not taken whole. What is left once the
cipher is done goes to the writer below as it is.
-/

namespace Cpxy.TcpMan

open Cpxy.Base

namespace CipherStream

/-- `matches!(self.wr_cipher.as_ref(), Some(c) if c.will_modify_data())`; `stream.rs:154`. -/
def modifiesData (s : CipherStream) : Bool := s.wrCipher.any (·.willModifyData)

/-- The end of `poll_write_vectored`: the slices behind the loop; `stream.rs:159–168`. -/
def writeRest (s : CipherStream) (totalLen : Nat) (bufs : List Bytes) (a : Answer) :
    Poll (Outcome ErrorChain Nat) × CipherStream × Bytes :=
  if bufs.isEmpty then (.ready (.ok totalLen), s, [])
  else
    match a.pollWriteVectored bufs with
    | (.ready (.ok v), out) => (.ready (.ok (totalLen + v)), s, out)
    | (.pending, out) => (if 0 < totalLen then .ready (.ok totalLen) else .pending, s, out)
    | (result, out) => (result, s, out)

/-- The loop of `poll_write_vectored` and what follows it; `stream.rs:144–168`. The writer
below answers each call in turn, and has to wait once the answers are used up.
`slice_take_first` is the match on the slices. -/
def writeSlices (s : CipherStream) (totalLen : Nat) (bufs : List Bytes) (answers : List Answer) :
    Poll (Outcome ErrorChain Nat) × CipherStream × Bytes :=
  match bufs with
  | [] => s.writeRest totalLen [] (answers.headD .pending)
  | buf :: bufs =>
    match s.pollWrite buf (answers.headD .pending) with
    | (.ready (.ok len), s, out) =>
      let (result, s, outs) :=
        if s.modifiesData then s.writeSlices (totalLen + len) bufs answers.tail
        else s.writeRest (totalLen + len) bufs (answers.tail.headD .pending)
      (result, s, out ++ outs)
    | (.pending, s, out) => (if 0 < totalLen then .ready (.ok totalLen) else .pending, s, out)
    | (result, s, out) => (result, s, out)

/-- `poll_write_vectored`; `stream.rs:136–172`: the result, the stream afterwards and the
bytes that reached the wire. -/
def pollWriteVectored (s : CipherStream) (bufs : List Bytes) (answers : List Answer) :
    Poll (Outcome ErrorChain Nat) × CipherStream × Bytes :=
  if s.modifiesData then s.writeSlices 0 bufs answers
  else
    let (result, out) := (answers.headD .pending).pollWriteVectored bufs
    (result, s, out)

end CipherStream

/-! ### What a call takes -/

/-- The bytes that a call takes of its slices: of each its own share while the strategy
reaches, then a prefix of all that is left. -/
def taken (strategy : EncryptionStrategy) (pos : Nat) (last : Option Nat) :
    List Bytes → List (Option Nat) → Bytes
  | [], _ => []
  | buf :: bufs, answers =>
    match answers.headD none with
    | none => []
    | some limit =>
      if strategy.reaches pos then
        let k := actualWrittenLen last buf.length limit
        buf.take k ++ taken strategy (pos + k) (some k) bufs answers.tail
      else (buf ++ bufs.flatten).take limit

/-- Behind the first slice that is not taken whole nothing more is taken, or else what its
own next bytes are. -/
def TakenInOrder (strategy : EncryptionStrategy) (pos : Nat) (last : Option Nat) :
    List Bytes → List (Option Nat) → Prop
  | [], _ => True
  | buf :: bufs, answers =>
    match answers.headD none with
    | none => True
    | some limit =>
      if strategy.reaches pos then
        let k := actualWrittenLen last buf.length limit
        if k = buf.length then TakenInOrder strategy (pos + k) (some k) bufs answers.tail
        else taken strategy (pos + k) (some k) bufs answers.tail <+: buf.drop k ++ bufs.flatten
      else True

section Taken

variable {strategy : EncryptionStrategy} {pos : Nat} {last : Option Nat} {bufs : List Bytes}
  {answers : List (Option Nat)}

theorem taken_of_pending (h : answers.headD none = none) :
    taken strategy pos last bufs answers = [] := by
  cases bufs with
  | nil => rfl
  | cons buf bufs => rw [taken, h]

theorem taken_of_reaches {buf : Bytes} {limit : Nat} (h : answers.headD none = some limit)
    (hr : strategy.reaches pos = true) {k : Nat}
    (hk : k = actualWrittenLen last buf.length limit) :
    taken strategy pos last (buf :: bufs) answers =
      buf.take k ++ taken strategy (pos + k) (some k) bufs answers.tail := by
  rw [taken, h]
  simp only [if_pos hr, ← hk]

theorem taken_of_not_reaches {limit : Nat} (h : answers.headD none = some limit)
    (hr : strategy.reaches pos = false) :
    taken strategy pos last bufs answers = bufs.flatten.take limit := by
  cases bufs with
  | nil => simp [taken]
  | cons buf bufs =>
    rw [taken, h]
    simp [hr]

/-- What is taken is a prefix of the slices exactly if it is taken in order. -/
theorem taken_prefix_iff (bufs : List Bytes) :
    taken strategy pos last bufs answers <+: bufs.flatten ↔
      TakenInOrder strategy pos last bufs answers := by
  induction bufs generalizing pos last answers with
  | nil => simp [taken, TakenInOrder]
  | cons buf bufs ih =>
    rw [List.flatten_cons]
    cases ha : answers.headD none with
    | none =>
      rw [taken_of_pending ha, TakenInOrder, ha]
      simp
    | some limit =>
      by_cases hr : strategy.reaches pos = true
      · generalize hk : actualWrittenLen last buf.length limit = k
        have hle : k ≤ buf.length := hk ▸ actualWrittenLen_le _ _ _
        simp only [taken_of_reaches ha hr hk.symm, TakenInOrder, ha, if_pos hr, hk]
        by_cases hwhole : k = buf.length
        · rw [if_pos hwhole, ← ih, hwhole, List.take_length]
          exact List.prefix_append_right_inj buf
        · rw [if_neg hwhole]
          have hsplit : buf ++ bufs.flatten = buf.take k ++ (buf.drop k ++ bufs.flatten) := by
            rw [← List.append_assoc, List.take_append_drop]
          rw [hsplit]
          exact List.prefix_append_right_inj (buf.take k)
      · have hidle : strategy.reaches pos = false := Bool.not_eq_true _ ▸ hr
        simp only [taken_of_not_reaches ha hidle, TakenInOrder, ha, if_neg hr, iff_true]
        rw [List.flatten_cons]
        exact List.take_prefix _ _

end Taken

/-! ### What a call writes -/

/-- A call put the data on the wire with its keys, leaves the cipher behind it, and counts it
on top of what was counted before. -/
structure Wrote (strategy : EncryptionStrategy) (ks : Keystream) (pos totalLen : Nat)
    (data : Bytes) (call : Poll (Outcome ErrorChain Nat) × CipherStream × Bytes) : Prop where
  wire : call.2.2 = xorAt (strategy.keys ks) pos data
  inStep : InStep strategy ks (pos + data.length) call.2.1.wrCipher
  counted : ∀ k, call.1 = .ready (.ok k) → k = totalLen + data.length

variable {strategy : EncryptionStrategy} {ks : Keystream} {pos : Nat} {s : CipherStream}
  {totalLen : Nat}

theorem InStep.of_modifiesData (h : InStep strategy ks pos s.wrCipher)
    (hm : s.modifiesData = true) : ∃ c, s.wrCipher = some c ∧ StrategyCipher.At strategy ks pos c ∧
      c.willModifyData = true := by
  rw [CipherStream.modifiesData] at hm
  cases hc : s.wrCipher with
  | none =>
    rw [hc] at hm
    cases hm
  | some c =>
    rw [hc] at h hm
    exact ⟨c, rfl, h, hm⟩

/-- Without a working cipher, no keys are left to add. -/
theorem InStep.keys_eq_zero (h : InStep strategy ks pos s.wrCipher)
    (hm : s.modifiesData = false) : ∀ i, pos ≤ i → strategy.keys ks i = 0 := by
  rw [CipherStream.modifiesData] at hm
  cases hc : s.wrCipher with
  | none =>
    rw [hc] at h
    exact h
  | some c =>
    rw [hc] at h hm
    exact StrategyCipher.At.keys_eq_zero h hm

/-- Without a working cipher, the stream stays in step with what goes out. -/
theorem InStep.idle (h : InStep strategy ks pos s.wrCipher) (hm : s.modifiesData = false)
    (k : Nat) : InStep strategy ks (pos + k) s.wrCipher := by
  rw [CipherStream.modifiesData] at hm
  cases hc : s.wrCipher with
  | none =>
    rw [hc] at h
    intro i hi
    apply h i
    omega
  | some c =>
    rw [hc] at h hm
    exact StrategyCipher.At.idle h hm k

/-- Without a working cipher, data goes out as it is. -/
theorem InStep.wrote_plain (h : InStep strategy ks pos s.wrCipher)
    (hm : s.modifiesData = false) {data : Bytes} {result : Poll (Outcome ErrorChain Nat)}
    (hresult : ∀ k, result = .ready (.ok k) → k = totalLen + data.length) :
    Wrote strategy ks pos totalLen data (result, s, data) where
  wire := (xorAt_of_zero (h.keys_eq_zero hm) data).symm
  inStep := h.idle hm data.length
  counted := hresult

/-- A call that has to wait wrote nothing, and returns what was counted before. -/
theorem InStep.wrote_pending (h : InStep strategy ks pos s.wrCipher) :
    Wrote strategy ks pos totalLen []
      (if 0 < totalLen then .ready (.ok totalLen) else .pending, s, []) := by
  refine ⟨rfl, h, ?_⟩
  intro k hk
  split at hk
  · cases hk
    rfl
  · cases hk

/-- One piece after the other. -/
theorem Wrote.append {data data' out outs : Bytes} {result : Poll (Outcome ErrorChain Nat)}
    {s' : CipherStream} (h : out = xorAt (strategy.keys ks) pos data)
    (h' : Wrote strategy ks (pos + data.length) (totalLen + data.length) data'
      (result, s', outs)) :
    Wrote strategy ks pos totalLen (data ++ data') (result, s', out ++ outs) := by
  refine ⟨?_, ?_, ?_⟩
  · have hwire : outs = xorAt (strategy.keys ks) (pos + data.length) data' := h'.wire
    show out ++ outs = xorAt (strategy.keys ks) pos (data ++ data')
    rw [xorAt_append, h, hwire]
  · simpa [Nat.add_assoc] using h'.inStep
  · intro k hk
    rw [List.length_append, ← Nat.add_assoc]
    exact h'.counted k hk

/-- A call whose number counts what it wrote reports a prefix of the data that it was given
exactly if it wrote one. -/
theorem Wrote.prefix_iff {data wire given : Bytes} {s' : CipherStream} {k : Nat}
    (h : Wrote strategy ks pos 0 data (.ready (.ok k), s', wire)) :
    (wire = xorAt (strategy.keys ks) pos (given.take k) ∧
        InStep strategy ks (pos + k) s'.wrCipher) ↔ data <+: given := by
  have hwire : wire = xorAt (strategy.keys ks) pos data := h.wire
  obtain rfl : k = data.length := (h.counted k rfl).trans (Nat.zero_add _)
  rw [hwire, xorAt_inj, List.prefix_iff_eq_take]
  exact and_iff_left h.inStep

/-- Behind the loop, the slices that are left go out as they are. -/
theorem InStep.writeRest (h : InStep strategy ks pos s.wrCipher)
    (hm : s.modifiesData = false) (hr : strategy.reaches pos = false) (totalLen : Nat)
    (last : Option Nat) (bufs : List Bytes) (answers : List (Option Nat)) :
    Wrote strategy ks pos totalLen (taken strategy pos last bufs answers)
      (s.writeRest totalLen bufs (.ofLimit (answers.headD none))) := by
  cases bufs with
  | nil =>
    apply h.wrote_plain hm
    intro k hk
    cases hk
    rfl
  | cons buf bufs =>
    rw [CipherStream.writeRest, if_neg (by simp)]
    cases ha : answers.headD none with
    | none =>
      rw [taken_of_pending ha]
      exact h.wrote_pending
    | some limit =>
      rw [taken_of_not_reaches ha hr]
      apply h.wrote_plain hm
      intro k hk
      cases hk
      rw [List.length_take]

/-- The loop writes what it takes, whatever the writer below answers. -/
theorem InStep.writeSlices (h : InStep strategy ks pos s.wrCipher) (hs : strategy.Counts)
    (hm : s.modifiesData = true) (totalLen : Nat) (bufs : List Slice)
    (answers : List (Option Nat)) :
    Wrote strategy ks pos totalLen
      (taken strategy pos s.lastWrittenSize (bufs.map Subtype.val) answers)
      (s.writeSlices totalLen (bufs.map Subtype.val) (answers.map .ofLimit)) := by
  induction bufs generalizing pos s totalLen answers with
  | nil =>
    rw [List.map_nil, CipherStream.writeSlices]
    refine ⟨rfl, h, ?_⟩
    intro k hk
    cases hk
    rfl
  | cons buf bufs ih =>
    obtain ⟨c, hc, hat, hw⟩ := h.of_modifiesData hm
    have hr : strategy.reaches pos = true := hat.willModifyData_eq.symm.trans hw
    rw [List.map_cons, CipherStream.writeSlices, Answer.headD_ofLimit, ← List.map_tail,
      Answer.headD_ofLimit]
    simp only [CipherStream.pollWrite, hc, if_pos hw]
    cases ha : answers.headD none with
    | none =>
      obtain ⟨s', hwait, hstep⟩ := encryptAndWrite_pending (s := s) hat hw hs buf.property
      rw [taken_of_pending ha, Answer.ofLimit, hwait]
      exact hstep.wrote_pending
    | some limit =>
      generalize hk : actualWrittenLen s.lastWrittenSize buf.val.length limit = k
      have hlen : (buf.val.take k).length = k :=
        List.length_take_of_le (hk ▸ actualWrittenLen_le _ _ _)
      obtain ⟨c', hwrite, hat'⟩ :=
        encryptAndWrite_ready (s := s) hat hw hs buf.property limit hk.symm
      rw [taken_of_reaches ha hr hk.symm, Answer.ofLimit, hwrite]
      apply Wrote.append rfl
      rw [hlen]
      let next : CipherStream := { s with wrCipher := some c', lastWrittenSize := some k }
      have hstep : InStep strategy ks (pos + k) next.wrCipher := hat'
      -- `stream.rs:154`: the loop stops only when the cipher is done
      cases hnext : c'.willModifyData with
      | true =>
        have hrest := ih hstep hnext (totalLen + k) answers.tail
        simpa only [CipherStream.modifiesData, Option.any_some, hnext, if_true] using hrest
      | false =>
        have hdone : strategy.reaches (pos + k) = false := hat'.willModifyData_eq.symm.trans hnext
        have hrest := hstep.writeRest hnext hdone (totalLen + k) (some k)
          (bufs.map Subtype.val) answers.tail
        simpa only [CipherStream.modifiesData, Option.any_some, hnext, Bool.false_eq_true,
          if_false] using hrest

/-- Without a working cipher, the slices go out as they are, as far as the writer below takes
them. -/
theorem InStep.pollWriteVectored_idle (h : InStep strategy ks pos s.wrCipher)
    (hm : s.modifiesData = false) (bufs : List Bytes) (answers : List (Option Nat)) :
    ∃ data, data <+: bufs.flatten ∧
      Wrote strategy ks pos 0 data (s.pollWriteVectored bufs (answers.map .ofLimit)) := by
  rw [CipherStream.pollWriteVectored, if_neg (by simp [hm]), Answer.headD_ofLimit]
  cases answers.headD none with
  | none => exact ⟨[], List.nil_prefix, h.wrote_pending⟩
  | some limit =>
    refine ⟨bufs.flatten.take limit, List.take_prefix _ _, h.wrote_plain hm ?_⟩
    intro k hk
    cases hk
    rw [List.length_take, Nat.zero_add]

/-- Whatever the writer below answers and whatever is returned, the stream stays in step with
what the call put on the wire. -/
theorem InStep.pollWriteVectored (h : InStep strategy ks pos s.wrCipher) (hs : strategy.Counts)
    (bufs : List Slice) (answers : List (Option Nat)) :
    ∃ data, Wrote strategy ks pos 0 data
      (s.pollWriteVectored (bufs.map Subtype.val) (answers.map .ofLimit)) := by
  cases hm : s.modifiesData with
  | true =>
    rw [CipherStream.pollWriteVectored, if_pos hm]
    exact ⟨_, h.writeSlices hs hm 0 bufs answers⟩
  | false =>
    obtain ⟨data, _, hwrote⟩ := h.pollWriteVectored_idle hm (bufs.map Subtype.val) answers
    exact ⟨data, hwrote⟩

/-- The number that a vectored write returns counts a prefix of the slices, exactly if what it
takes of them while its cipher works is taken in order. -/
theorem pollWriteVectored_prefix_iff (h : InStep strategy ks pos s.wrCipher)
    (hs : strategy.Counts) (bufs : List Slice) (answers : List (Option Nat)) {k : Nat}
    {s' : CipherStream} {wire : Bytes}
    (hready : s.pollWriteVectored (bufs.map Subtype.val) (answers.map .ofLimit) =
      (.ready (.ok k), s', wire)) :
    (wire = xorAt (strategy.keys ks) pos ((bufs.map Subtype.val).flatten.take k) ∧
        InStep strategy ks (pos + k) s'.wrCipher) ↔
      (s.modifiesData = true →
        TakenInOrder strategy pos s.lastWrittenSize (bufs.map Subtype.val) answers) := by
  cases hm : s.modifiesData with
  | true =>
    have hwrote := h.writeSlices hs hm 0 bufs answers
    rw [CipherStream.pollWriteVectored, if_pos hm] at hready
    rw [hready] at hwrote
    rw [hwrote.prefix_iff, taken_prefix_iff]
    exact ⟨fun horder _ ↦ horder, fun horder ↦ horder rfl⟩
  | false =>
    obtain ⟨data, hprefix, hwrote⟩ := h.pollWriteVectored_idle hm (bufs.map Subtype.val) answers
    rw [hready] at hwrote
    rw [hwrote.prefix_iff]
    constructor
    · intro _ hworks
      cases hworks
    · intro _
      exact hprefix

/-! A stream encrypts the first four bytes that it sends: two slices are taken whole, and the
cipher is done within the second. -/

private def countingKeys : Keystream := fun i ↦ 16 * (.ofNat i + 1)

private def fourBytes : EncryptionStrategy := .firstN ⟨4, by decide⟩

private def fourStream : CipherStream :=
  .new .never (.firstN ⟨Cipher.new countingKeys, 4⟩)

theorem pollWriteVectored_prefix_whole :
    ∃ s' wire, fourStream.pollWriteVectored [[1, 2], [3, 4, 5], [6, 7]]
        ([some 2, some 3, some 1].map .ofLimit) = (.ready (.ok 6), s', wire) ∧
      wire = xorAt (fourBytes.keys countingKeys) 0 [1, 2, 3, 4, 5, 6] ∧
      InStep fourBytes countingKeys 6 s'.wrCipher := by
  have hstart : InStep fourBytes countingKeys 0 fourStream.wrCipher :=
    ⟨rfl, fun _ ↦ rfl, fun h ↦ absurd h (by decide)⟩
  have hcounts : fourBytes.Counts := (by decide : 4 ≤ isizeMax)
  have horder : TakenInOrder fourBytes 0 none [[1, 2], [3, 4, 5], [6, 7]]
      [some 2, some 3, some 1] := by
    simp [TakenInOrder, actualWrittenLen, fourBytes, EncryptionStrategy.reaches]
  have hresult : (fourStream.pollWriteVectored [[1, 2], [3, 4, 5], [6, 7]]
      ([some 2, some 3, some 1].map .ofLimit)).1 = .ready (.ok 6) := by
    decide
  rcases hcall : fourStream.pollWriteVectored [[1, 2], [3, 4, 5], [6, 7]]
      ([some 2, some 3, some 1].map .ofLimit) with ⟨result, s', wire⟩
  rw [hcall] at hresult
  obtain rfl : result = .ready (.ok 6) := hresult
  exact ⟨s', wire, rfl, (pollWriteVectored_prefix_iff hstart hcounts
    [⟨[1, 2], by decide⟩, ⟨[3, 4, 5], by decide⟩, ⟨[6, 7], by decide⟩] [some 2, some 3, some 1]
    hcall).mpr fun _ ↦ horder⟩

/-- The loop leaves the first slice after one of its two bytes. The call returns 2, and the
second byte on the wire comes from the second slice. -/
theorem pollWriteVectored_skips :
    let call := fourStream.pollWriteVectored [[1, 2], [3, 4]] ([some 1, some 1].map .ofLimit)
    call.1 = .ready (.ok 2) ∧ call.2.2 = xorAt countingKeys 0 [1, 3] ∧
      call.2.2 ≠ xorAt (fourBytes.keys countingKeys) 0 ([[1, 2], [3, 4]].flatten.take 2) :=
  ⟨rfl, by decide, by decide⟩

end Cpxy.TcpMan
