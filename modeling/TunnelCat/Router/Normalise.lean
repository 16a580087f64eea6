import TunnelCat.Router.DataDead
import Mathlib.Data.List.TakeWhile

/-!
# The form of an address

`normaliseAddr` is to bring an address into the form of a host and a port: it cuts off the scheme
and the path of a URL, and if `net.SplitHostPort` does not find a port in what is left, it appends
one.  Everything the router knows has an address in this form, and the operations that are told
about a control bring what they are given into it before they look the control up.  So an address
that is taken from the router has to stay as it is when it is passed back.

There are more reasons for `SplitHostPort` not to accept an address than a missing port: an IPv6
address without brackets has too many colons, and a bracket may be where none belongs.  With a port
appended such an address is still not accepted, and the next call appends another one.
`normaliseAddr_stable_iff` says that there is no other trouble: the result is accepted, and stays as
it is, exactly if the address without its scheme and path is a host or a host with a port.
-/

set_option autoImplicit false

open HostPort

namespace TunnelCat.Router

/-- `AllControlAddrs`. -/
def allControlAddrs (r : Router) : List String := r.controls.map RouterNode.addr

/-- An address without its scheme and its path. -/
def bareAddr (addr : String) : List Char :=
  (trimPrefix (trimPrefix addr.toList "https://".toList) "http://".toList).takeWhile (· ≠ '/')

/-- `net.SplitHostPort` accepts an address. -/
def Accepted (addr : String) : Prop := ∃ r, splitHostPort Marks.chars addr.toList = .ok r

/-- A host, or a host and a port. -/
def IsAddr (s : List Char) : Prop :=
  IsHost Marks.chars s ∨ ∃ host port, s = host ++ ':' :: port ∧ IsHost Marks.chars host ∧
    Marks.chars.Free port

variable {a : String}

/-! ## What is cut off -/

theorem trimPrefix_of_notMem {s start : List Char} {c : Char} (hc : c ∈ start) (hs : c ∉ s) :
    trimPrefix s start = s := by
  rw [trimPrefix, if_neg]
  intro h
  exact hs ((List.isPrefixOf_iff_prefix.mp h).subset hc)

/-- Without a slash in it, an address has neither a scheme nor a path. -/
theorem bareAddr_of_notMem (h : '/' ∉ a.toList) : bareAddr a = a.toList := by
  rw [bareAddr, trimPrefix_of_notMem (c := '/') (by decide) h,
    trimPrefix_of_notMem (c := '/') (by decide) h, List.takeWhile_eq_self_iff]
  intro c hc
  rw [decide_eq_true_iff]
  rintro rfl
  exact h hc

theorem notMem_bareAddr (a : String) : '/' ∉ bareAddr a := by
  intro h
  have hslash := List.mem_takeWhile_imp h
  rw [decide_eq_true_iff] at hslash
  exact hslash rfl

/-! ## What is appended -/

theorem normaliseAddr_of_ok {hp : List Char × List Char}
    (h : splitHostPort Marks.chars (bareAddr a) = .ok hp) :
    (normaliseAddr a).toList = bareAddr a := by
  rw [bareAddr] at h
  rw [normaliseAddr, bareAddr, h]
  exact String.toList_ofList

theorem normaliseAddr_of_error {e : AddrError}
    (h : splitHostPort Marks.chars (bareAddr a) = .error e) :
    (normaliseAddr a).toList = bareAddr a ++ ':' :: "443".toList := by
  rw [bareAddr] at h
  rw [normaliseAddr, bareAddr, h]
  dsimp only
  rw [String.toList_append, String.toList_ofList]
  rfl

theorem notMem_normaliseAddr (a : String) : '/' ∉ (normaliseAddr a).toList := by
  cases h : splitHostPort Marks.chars (bareAddr a) with
  | ok hp =>
    rw [normaliseAddr_of_ok h]
    exact notMem_bareAddr a
  | error e =>
    rw [normaliseAddr_of_error h, List.mem_append, not_or]
    exact ⟨notMem_bareAddr a, by decide⟩

/-- An address without a slash stays as it is exactly if it is accepted. -/
theorem normaliseAddr_eq_self_iff (h : '/' ∉ a.toList) : normaliseAddr a = a ↔ Accepted a := by
  have hbare := bareAddr_of_notMem h
  rw [Accepted, ← String.toList_inj, ← hbare]
  cases hsplit : splitHostPort Marks.chars (bareAddr a) with
  | ok hp =>
    rw [normaliseAddr_of_ok hsplit]
    exact iff_of_true rfl ⟨hp, rfl⟩
  | error e =>
    rw [normaliseAddr_of_error hsplit]
    refine iff_of_false (fun heq ↦ ?_) ?_
    · exact List.cons_ne_nil _ _ (List.append_right_eq_self.mp heq)
    · rintro ⟨hp, hok⟩
      cases hok

/-- The result is accepted exactly if there was a host, or a host and a port. -/
theorem accepted_normaliseAddr_iff (a : String) :
    Accepted (normaliseAddr a) ↔ IsAddr (bareAddr a) := by
  have hport : Marks.chars.Free "443".toList := by decide
  rw [Accepted]
  cases h : splitHostPort Marks.chars (bareAddr a) with
  | ok hp =>
    rw [normaliseAddr_of_ok h]
    exact iff_of_true ⟨hp, h⟩ (.inr (exists_splitHostPort_iff.mp ⟨hp, h⟩))
  | error e =>
    rw [normaliseAddr_of_error h]
    refine (exists_splitHostPort_append hport).trans ⟨.inl, ?_⟩
    rintro (hhost | haddr)
    · exact hhost
    · obtain ⟨hp, hok⟩ := (exists_splitHostPort_iff (M := Marks.chars)).mpr haddr
      rw [h] at hok
      cases hok

/-! ## The result -/

/-- **When the form of an address is stable**, for every string: without its scheme and path it is a
host, or a host and a port, where a host has no colon and no bracket or stands in brackets.  Then
`net.SplitHostPort` accepts the result, normalising it again changes nothing, and a control whose
address it is can be reached by it. -/
theorem normaliseAddr_stable_iff (a : String) :
    normaliseAddr (normaliseAddr a) = normaliseAddr a ∧ Accepted (normaliseAddr a) ∧
      (∀ (r : Router) (now rtt : ℤ), normaliseAddr a ∈ r.allControlAddrs →
        (∃ c ∈ r.controls, c.addr = normaliseAddr a ∧ { c with isAlive := true, lastSeen := now } ∈
          (r.markControlAlive now (normaliseAddr a)).controls) ∧
        ∃ c ∈ r.controls, c.addr = normaliseAddr a ∧ { c with trafficRTT := rtt } ∈
          (r.updateTrafficRTT (normaliseAddr a) rtt).controls) ↔
      IsAddr (bareAddr a) := by
  rw [← accepted_normaliseAddr_iff]
  refine ⟨fun h ↦ h.2.1, fun h ↦ ?_⟩
  have hself := (normaliseAddr_eq_self_iff (notMem_normaliseAddr a)).mpr h
  refine ⟨hself, h, fun r now rtt hmem ↦ ?_⟩
  obtain ⟨c, hc, haddr⟩ := List.mem_map.mp hmem
  have hknown : ∃ c ∈ r.controls, c.addr = normaliseAddr (normaliseAddr a) :=
    ⟨c, hc, by rw [haddr, hself]⟩
  have halive := exists_markControlAlive now hknown
  have hrtt := exists_updateTrafficRTT rtt hknown
  rw [hself] at halive hrtt
  exact ⟨halive, hrtt⟩

/-- An IPv6 address without brackets gets one port more each time. -/
theorem bare_ipv6_unstable :
    normaliseAddr "2001:db8::1" = "2001:db8::1:443" ∧
      normaliseAddr "2001:db8::1:443" = "2001:db8::1:443:443" ∧
      splitHostPort Marks.chars "2001:db8::1:443".toList = .error .tooManyColons := by
  decide +kernel

end TunnelCat.Router
