import Cpxy.Net.Address

/-!
# Addresses as text

Library `Net`. Source `src/socks5/addr.rs:46–105` and `317–324`. The configuration file and
the path of a CONNECT request hold addresses as they are displayed, from where they are read
again.
-/

namespace Cpxy.Net

open Cpxy.Base

namespace Address

/-- The addresses whose text says all of them: a socket address without flow info, or a name
that is not taken for a socket address together with its port. -/
def Textual : Address → Prop
  | .ip addr => addr.textual = addr
  | .name host port => host ≠ "" ∧ SocketAddr.fromStr (display (.name host port)) = none

theorem tryFrom_of_fromStr {s : String} {addr : SocketAddr} (h : SocketAddr.fromStr s = some addr) :
    tryFrom s = .ok (.ip addr) := by
  rw [tryFrom, h]

theorem tryFrom_display_ip (addr : SocketAddr) :
    tryFrom (display (.ip addr)) = .ok (.ip addr.textual) :=
  tryFrom_of_fromStr (SocketAddr.fromStr_display addr)

theorem toList_display_name (host : String) (port : UInt16) :
    (display (.name host port)).toList = host.toList ++ ':' :: (toString port.toNat).toList := by
  rw [display]
  simp

/-- A name that is not taken for a socket address is cut off again where its port begins. -/
theorem tryFrom_display_name {host : String} {port : UInt16}
    (h : SocketAddr.fromStr (display (.name host port)) = none) :
    tryFrom (display (.name host port)) =
      if host = "" then .err [s!"Invalid URL: {display (.name host port)}"]
      else .ok (.name host port) := by
  have hcolon : ':' ∉ (toString port.toNat).toList := fun hmem ↦
    digitVal_of_mem_toString ':' hmem rfl
  have hport : (toString port.toNat).toList ≠ [] := by
    rw [toList_toString]
    exact Nat.toDigits_ne_nil
  rw [tryFrom, h]
  dsimp only
  rw [toList_display_name, rsplitOnce_append hcolon]
  dsimp only
  by_cases hhost : host = ""
  · rw [if_pos hhost, if_neg]
    rintro ⟨hne, _⟩
    exact hne (String.toList_eq_nil_iff.mpr hhost)
  · have hchars : host.toList ≠ [] := fun hnil ↦ hhost (String.toList_eq_nil_iff.mp hnil)
    rw [if_neg hhost, if_pos ⟨hchars, hport⟩, parseUnsigned_toString port.toNat_lt]
    dsimp only
    rw [String.ofList_toList, UInt16.ofNat_toNat]

/-- What is read from a text is read back, when it is a socket address. -/
theorem Textual.of_tryFrom {s : String} {addr : SocketAddr} (h : tryFrom s = .ok (.ip addr)) :
    Textual (.ip addr) := by
  rw [tryFrom] at h
  split at h
  · next v hv =>
    cases h
    exact SocketAddr.textual_of_fromStr hv
  · split at h
    · split at h
      · split at h <;> cases h
      · cases h
    · cases h

theorem Textual.tryFrom_display {a : Address} (h : a.Textual) : tryFrom a.display = .ok a := by
  cases a with
  | ip addr => rw [tryFrom_display_ip, h]
  | name host port => rw [tryFrom_display_name h.2, if_neg h.1]

/-- An address is read back from its text just when the text says all of it; whatever else is
read in its place is read back from then on. -/
theorem text_roundTrips_iff (a : Address) :
    (tryFrom a.display = .ok a ↔ a.Textual) ∧ ∀ b, tryFrom a.display = .ok b → b.Textual := by
  have hread : ∀ b, tryFrom a.display = .ok b → b.Textual := by
    intro b hb
    cases b with
    | ip addr => exact Textual.of_tryFrom hb
    | name host port =>
      cases a with
      | ip addr =>
        rw [tryFrom_display_ip] at hb
        cases hb
      | name host' port' =>
        cases hname : SocketAddr.fromStr (display (.name host' port')) with
        | some addr =>
          rw [tryFrom_of_fromStr hname] at hb
          cases hb
        | none =>
          rw [tryFrom_display_name hname] at hb
          split at hb
          · cases hb
          · next hhost =>
            cases hb
            exact ⟨hhost, hname⟩
  exact ⟨⟨hread a, Textual.tryFrom_display⟩, hread⟩

end Address
end Cpxy.Net
