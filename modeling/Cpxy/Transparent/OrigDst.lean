import Cpxy.Base.BigEndian

/-!
# The original destination of a datagram

Library `Transparent`. Source `src/client/transparent/utils.c:10–59` and
`src/client/transparent/utils.rs:111–155`. The kernel delivers the address that a diverted
datagram was sent to as a control message. A control message gives its length with its header,
and the copy takes that length for the length of the address.
-/

namespace Cpxy.Transparent

open Cpxy.Base

/-- `sizeof(struct sockaddr_in6)`: the size of the caller's buffers; `utils.rs:115–119`. -/
def sizeofSockaddrIn6 : Nat := 28

/-- `sizeof(struct cmsghdr)`. -/
def sizeofCmsghdr : Nat := 16

/-- `CMSG_ALIGN`: up to the next multiple of `sizeof(size_t)`. -/
def cmsgAlign (n : Nat) : Nat := (n + 7) / 8 * 8

/-- `CMSG_SPACE`. -/
def cmsgSpace (n : Nat) : Nat := cmsgAlign n + cmsgAlign sizeofCmsghdr

/-- A control message. -/
structure Cmsg where
  level : Int
  type : Int
  payload : Bytes
  deriving DecidableEq, Repr

namespace Cmsg

/-- `cmsg_len`, which counts the header. -/
def len (cmsg : Cmsg) : Nat := sizeofCmsghdr + cmsg.payload.length

/-- The test of `utils.c:46–47`: `SOL_IP` with `IP_ORIGDSTADDR`, or `SOL_IPV6` with
`IPV6_ORIGDSTADDR`. -/
def IsOrigDst (cmsg : Cmsg) : Prop :=
  (cmsg.level = 0 ∧ cmsg.type = 20) ∨ (cmsg.level = 41 ∧ cmsg.type = 74)

instance (cmsg : Cmsg) : Decidable cmsg.IsOrigDst :=
  inferInstanceAs (Decidable (_ ∨ _))

end Cmsg

/-- The bytes of the stack, from the control buffer on. -/
abbrev Stack := Nat → UInt8

/-- `memcpy` out of the stack: the bytes that are written to the destination. -/
def memcpy (stack : Stack) (offset len : Nat) : Bytes :=
  (List.range len).map fun i ↦ stack (offset + i)

/-- The payloads of the messages are where the headers say. -/
def Stored (stack : Stack) : Nat → List Cmsg → Prop
  | _, [] => True
  | offset, cmsg :: rest =>
    memcpy stack (offset + sizeofCmsghdr) cmsg.payload.length = cmsg.payload ∧
      Stored stack (offset + cmsgAlign cmsg.len) rest

instance (stack : Stack) : (offset : Nat) → (cmsgs : List Cmsg) →
    Decidable (Stored stack offset cmsgs)
  | _, [] => inferInstanceAs (Decidable True)
  | offset, cmsg :: rest =>
    have := instDecidableStored stack (offset + cmsgAlign cmsg.len) rest
    inferInstanceAs (Decidable (_ ∧ _))

/-- What `recvmsg` leaves when it succeeds: the size of the datagram, the length of the sender's
address, and the control messages. These fit the control buffer of `utils.c:19`. -/
structure Received where
  size : Nat
  nameLen : Nat
  cmsgs : List Cmsg
  stack : Stack
  fits : (cmsgs.map fun cmsg ↦ cmsgSpace cmsg.payload.length).sum ≤ cmsgSpace sizeofSockaddrIn6
  stored : Stored stack 0 cmsgs

/-- The loop of `utils.c:42–55` from a message on: what is copied to the destination buffer, and
`*dst_addr_len`. -/
def copyOrigDst (stack : Stack) : Nat → List Cmsg → Bytes × Nat
  | _, [] => ([], 0)
  | offset, cmsg :: rest =>
    if cmsg.IsOrigDst then (memcpy stack (offset + sizeofCmsghdr) cmsg.len, cmsg.len)
    else copyOrigDst stack (offset + cmsgAlign cmsg.len) rest

/-- What the call returns, and what it leaves behind the pointers that it was given. -/
structure OrigDst where
  rc : Int
  srcAddrLen : Nat
  dstAddrLen : Nat
  copied : Bytes

/-- `do_recv_with_orig_dst`; `utils.c:10–59`. The sender's address is received into the caller's
buffer, and copied there onto itself. -/
def doRecvWithOrigDst (srcAddrLen dstAddrLen : Nat) : Option Received → OrigDst
  | none => ⟨-1, srcAddrLen, dstAddrLen, []⟩
  | some r =>
    let (copied, len) := copyOrigDst r.stack 0 r.cmsgs
    ⟨r.size, r.nameLen, len, copied⟩

/-- The copy stays within the destination buffer, and gives the payload of the first message with
an original destination, and its length. -/
structure OrigDst.Exact (o : OrigDst) (cmsgs : List Cmsg) : Prop where
  fits : o.copied.length ≤ sizeofSockaddrIn6
  found : ∀ cmsg, cmsgs.find? (fun cmsg ↦ cmsg.IsOrigDst) = some cmsg →
    o.copied = cmsg.payload ∧ o.dstAddrLen = cmsg.payload.length
  absent : cmsgs.find? (fun cmsg ↦ cmsg.IsOrigDst) = none → o.dstAddrLen = 0

variable {stack : Stack} {cmsgs : List Cmsg} {cmsg : Cmsg} {offset : Nat}

@[simp] theorem length_memcpy (stack : Stack) (offset len : Nat) :
    (memcpy stack offset len).length = len := by
  simp [memcpy]

/-- A longer copy goes on behind a shorter one. -/
theorem memcpy_add (stack : Stack) (offset m n : Nat) :
    memcpy stack offset (m + n) = memcpy stack offset m ++ memcpy stack (offset + m) n := by
  simp [memcpy, List.range_add, Nat.add_assoc]

/-- Without an original destination nothing is copied. -/
theorem copyOrigDst_of_absent (h : ∀ cmsg ∈ cmsgs, ¬ cmsg.IsOrigDst) (offset : Nat) :
    copyOrigDst stack offset cmsgs = ([], 0) := by
  induction cmsgs generalizing offset with
  | nil => rfl
  | cons cmsg rest ih =>
    have hrest : ∀ m ∈ rest, ¬ m.IsOrigDst := fun m hm ↦ h m (List.mem_cons_of_mem _ hm)
    rw [copyOrigDst, if_neg (h cmsg List.mem_cons_self), ih hrest]

/-- The copy starts with the address, and goes on for the size of a header. -/
theorem copyOrigDst_of_found (hs : Stored stack offset cmsgs)
    (h : cmsgs.find? (fun cmsg ↦ cmsg.IsOrigDst) = some cmsg) :
    ∃ excess, excess.length = sizeofCmsghdr ∧
      copyOrigDst stack offset cmsgs = (cmsg.payload ++ excess, cmsg.len) := by
  induction cmsgs generalizing offset with
  | nil => cases h
  | cons m rest ih =>
    obtain ⟨hpayload, hrest⟩ := hs
    rw [copyOrigDst]
    by_cases hm : m.IsOrigDst
    · have heq : m = cmsg := by simpa [hm] using h
      subst heq
      have hlen : m.len = m.payload.length + sizeofCmsghdr := Nat.add_comm _ _
      have hcopy := memcpy_add stack (offset + sizeofCmsghdr) m.payload.length sizeofCmsghdr
      rw [← hlen, hpayload] at hcopy
      rw [if_pos hm, hcopy]
      exact ⟨_, length_memcpy _ _ _, rfl⟩
    · rw [if_neg hm]
      apply ih hrest
      simpa [hm] using h

/-- The copy is right on a datagram exactly when the kernel says nothing about its destination. -/
theorem doRecvWithOrigDst_exact_iff (r : Received) (srcAddrLen dstAddrLen : Nat) :
    (doRecvWithOrigDst srcAddrLen dstAddrLen (some r)).Exact r.cmsgs ↔
      ∀ cmsg ∈ r.cmsgs, ¬ cmsg.IsOrigDst := by
  constructor
  · intro h cmsg hmem horig
    obtain ⟨m, hm⟩ : ∃ m, r.cmsgs.find? (fun cmsg ↦ cmsg.IsOrigDst) = some m := by
      apply Option.isSome_iff_exists.mp
      rw [List.find?_isSome]
      exact ⟨cmsg, hmem, by simpa using horig⟩
    obtain ⟨excess, _, hcopy⟩ := copyOrigDst_of_found r.stored hm
    have hlen : m.len = m.payload.length := by
      have hfound := (h.found m hm).2
      rwa [doRecvWithOrigDst, hcopy] at hfound
    rw [Cmsg.len, sizeofCmsghdr] at hlen
    omega
  · intro h
    have hnone : r.cmsgs.find? (fun cmsg ↦ cmsg.IsOrigDst) = none := by
      rw [List.find?_eq_none]
      intro cmsg hmem
      simpa using h cmsg hmem
    rw [doRecvWithOrigDst, copyOrigDst_of_absent h 0]
    constructor
    · exact Nat.zero_le _
    · intro cmsg hfound
      rw [hnone] at hfound
      cases hfound
    · intro _
      rfl

/-- With an original destination, the copy leaves the buffer when the address has more than twelve
bytes, as that of either family has. -/
theorem doRecvWithOrigDst_overruns_iff (r : Received) (srcAddrLen dstAddrLen : Nat)
    (h : r.cmsgs.find? (fun cmsg ↦ cmsg.IsOrigDst) = some cmsg) :
    sizeofSockaddrIn6 < (doRecvWithOrigDst srcAddrLen dstAddrLen (some r)).copied.length ↔
      12 < cmsg.payload.length := by
  obtain ⟨excess, hlen, hcopy⟩ := copyOrigDst_of_found r.stored h
  rw [doRecvWithOrigDst, hcopy]
  dsimp only
  rw [List.length_append, hlen, sizeofSockaddrIn6, sizeofCmsghdr]
  omega

/-- The destination 10.0.0.1 with port 80, as a `sockaddr_in`. -/
private def tenNet : Bytes := [2, 0, 0, 80, 10, 0, 0, 1, 0, 0, 0, 0, 0, 0, 0, 0]

/-- A datagram of one byte to that destination. -/
private def divertedDatagram : Received where
  size := 1
  nameLen := 16
  cmsgs := [⟨0, 20, tenNet⟩]
  stack i := tenNet.getD (i - 16) 0xaa
  fits := by decide
  stored := by decide

/-- For an address of sixteen bytes, thirty-two are written into a buffer of twenty-eight. -/
theorem doRecvWithOrigDst_overruns :
    ¬ ∀ (r : Received) (srcAddrLen dstAddrLen : Nat),
      (doRecvWithOrigDst srcAddrLen dstAddrLen (some r)).Exact r.cmsgs := by
  intro h
  have hfits := (h divertedDatagram 28 28).fits
  revert hfits
  decide

end Cpxy.Transparent
