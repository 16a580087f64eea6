import TunnelCat.Lib.Bytes
import TunnelCat.Lib.HostPort

/-!
# Numbers and addresses as text

How Go writes a port (`fmt.Sprintf` with `%d`), how it reads one (`strconv.ParseUint` with base 10
and 16 bits), and how it writes an IP address (`IP.String`): four decimal numbers with points
between, or groups of hexadecimal digits with colons between, where the longest run of two zeros or
more is left out.

A port that was written is read back (`parseUint16_decimal`).  What is written has no marks of an
address in it, except the colons of IPv6 (`free_decimal`, `free_ipv4Text`, `noBrackets_ipv6Text`).
-/

set_option autoImplicit false

namespace AddrText

/-! ## Decimal numbers -/

/-- The digits of a number put in front of a text.  The number itself is enough fuel. -/
def decimalOnto : ℕ → ℕ → Bytes → Bytes
  | 0, _, text => text
  | fuel + 1, n, text =>
    if n < 10 then UInt8.ofNat (48 + n) :: text
    else decimalOnto fuel (n / 10) (UInt8.ofNat (48 + n % 10) :: text)

/-- A number in decimal. -/
def decimal (n : ℕ) : Bytes := decimalOnto (n + 1) n []

/-- One digit of `ParseUint` with base 10 and 16 bits. -/
def parseDigit (n : ℕ) (c : UInt8) : Option ℕ :=
  if 48 ≤ c.toNat ∧ c.toNat ≤ 57 then
    let n := n * 10 + (c.toNat - 48)
    if n > 65535 then none else some n
  else none

/-- `strconv.ParseUint(s, 10, 16)`. -/
def parseUint16 (s : Bytes) : Option ℕ := if s = [] then none else s.foldlM parseDigit 0

theorem parseDigit_ofNat {n d : ℕ} (hd : d < 10) (hn : n * 10 + d ≤ 65535) :
    parseDigit n (UInt8.ofNat (48 + d)) = some (n * 10 + d) := by
  have hval : (UInt8.ofNat (48 + d)).toNat = 48 + d := by
    rw [UInt8.toNat_ofNat', Nat.mod_eq_of_lt (by omega)]
  rw [parseDigit]
  rw [hval, if_pos ⟨by omega, by omega⟩]
  dsimp only
  rw [if_neg (by omega), Nat.add_sub_cancel_left]

/-- Reading the digits of a number gives the number, to go on with. -/
theorem foldlM_decimalOnto {fuel n : ℕ} (hfuel : n < fuel) (hn : n ≤ 65535) (text : Bytes) :
    (decimalOnto fuel n text).foldlM parseDigit 0 = text.foldlM parseDigit n := by
  induction fuel generalizing n text with
  | zero => omega
  | succ fuel ih =>
    rw [decimalOnto]
    split
    · rename_i hlt
      rw [List.foldlM_cons, parseDigit_ofNat hlt (by omega), Nat.zero_mul, Nat.zero_add]
      rfl
    · rw [ih (by omega) (by omega), List.foldlM_cons,
        parseDigit_ofNat (Nat.mod_lt _ (by omega)) (by omega), Nat.div_add_mod']
      rfl

theorem decimalOnto_ne_nil (fuel n : ℕ) (c : UInt8) (text : Bytes) :
    decimalOnto fuel n (c :: text) ≠ [] := by
  induction fuel generalizing n c text with
  | zero => exact List.cons_ne_nil _ _
  | succ fuel ih =>
    rw [decimalOnto]
    split
    · exact List.cons_ne_nil _ _
    · exact ih _ _ _

theorem decimal_ne_nil (n : ℕ) : decimal n ≠ [] := by
  rw [decimal, decimalOnto]
  split
  · exact List.cons_ne_nil _ _
  · exact decimalOnto_ne_nil _ _ _ _

/-- **A port that was written is read back.** -/
theorem parseUint16_decimal (p : UInt16) : parseUint16 (decimal p.toNat) = some p.toNat := by
  have hp := p.toNat_lt
  rw [parseUint16, if_neg (decimal_ne_nil _), decimal, foldlM_decimalOnto (by omega) (by omega)]
  rfl

/-- A decimal digit. -/
def IsDigit (c : UInt8) : Prop := 48 ≤ c.toNat ∧ c.toNat ≤ 57

theorem isDigit_of_mem_decimalOnto {fuel n : ℕ} {text : Bytes} {c : UInt8}
    (h : c ∈ decimalOnto fuel n text) : IsDigit c ∨ c ∈ text := by
  have hdigit : ∀ d < 10, IsDigit (UInt8.ofNat (48 + d)) := fun d hd ↦ by
    rw [IsDigit]
    rw [UInt8.toNat_ofNat', Nat.mod_eq_of_lt (by omega)]
    omega
  induction fuel generalizing n text with
  | zero => exact .inr h
  | succ fuel ih =>
    rw [decimalOnto] at h
    split at h
    · rename_i hlt
      rcases List.mem_cons.mp h with rfl | h
      · exact .inl (hdigit n hlt)
      · exact .inr h
    · rcases ih h with hc | hc
      · exact .inl hc
      · rcases List.mem_cons.mp hc with rfl | hc
        · exact .inl (hdigit _ (Nat.mod_lt _ (by omega)))
        · exact .inr hc

theorem isDigit_of_mem_decimal {n : ℕ} {c : UInt8} (h : c ∈ decimal n) : IsDigit c :=
  (isDigit_of_mem_decimalOnto h).resolve_right List.not_mem_nil

/-- A text of digits and points has no marks in it. -/
theorem free_of_digits {text : Bytes} (h : ∀ c ∈ text, IsDigit c ∨ c = 46) :
    Marks.bytes.Free text := by
  have hno : ∀ c : UInt8, ¬(IsDigit c ∨ c = 46) → c ∉ text := fun c hc hmem ↦ hc (h c hmem)
  refine ⟨hno _ ?_, hno _ ?_, hno _ ?_⟩
  all_goals
    rintro (hd | hd)
    · exact absurd hd (by unfold IsDigit; decide)
    · exact absurd hd (by decide)

theorem free_decimal (n : ℕ) : Marks.bytes.Free (decimal n) :=
  free_of_digits fun _ hc ↦ .inl (isDigit_of_mem_decimal hc)

/-! ## Addresses -/

/-- Parts of a text with a character between. -/
def joinWith (sep : UInt8) : List Bytes → Bytes
  | [] => []
  | [x] => x
  | x :: y :: rest => x ++ sep :: joinWith sep (y :: rest)

theorem mem_joinWith {sep c : UInt8} {parts : List Bytes} (h : c ∈ joinWith sep parts) :
    c = sep ∨ ∃ x ∈ parts, c ∈ x := by
  induction parts using joinWith.induct with
  | case1 => cases h
  | case2 x => exact .inr ⟨x, List.mem_singleton_self x, h⟩
  | case3 x y rest ih =>
    rw [joinWith] at h
    rcases List.mem_append.mp h with hx | hrest
    · exact .inr ⟨x, List.mem_cons_self .., hx⟩
    rcases List.mem_cons.mp hrest with rfl | hrest
    · exact .inl rfl
    · rcases ih hrest with hc | ⟨z, hz, hc⟩
      · exact .inl hc
      · exact .inr ⟨z, List.mem_cons_of_mem _ hz, hc⟩

/-- An IPv4 address: its bytes in decimal. -/
def ipv4Text (ip : Bytes) : Bytes := joinWith 46 (ip.map fun b ↦ decimal b.toNat)

theorem isDigit_or_of_mem_ipv4Text {ip : Bytes} {c : UInt8} (h : c ∈ ipv4Text ip) :
    IsDigit c ∨ c = 46 := by
  rcases mem_joinWith h with rfl | ⟨x, hx, hc⟩
  · exact .inr rfl
  · obtain ⟨b, -, rfl⟩ := List.mem_map.mp hx
    exact .inl (isDigit_of_mem_decimal hc)

theorem free_ipv4Text (ip : Bytes) : Marks.bytes.Free (ipv4Text ip) :=
  free_of_digits fun _ ↦ isDigit_or_of_mem_ipv4Text

/-- A hexadecimal digit, in lower case. -/
def hexByte (d : ℕ) : UInt8 := UInt8.ofNat (if d < 10 then 48 + d else 87 + d)

/-- A group of IPv6, without leading zeros. -/
def groupText (x : ℕ) : Bytes :=
  (if x ≥ 0x1000 then [hexByte (x / 0x1000 % 16)] else []) ++
  (if x ≥ 0x100 then [hexByte (x / 0x100 % 16)] else []) ++
  (if x ≥ 0x10 then [hexByte (x / 0x10 % 16)] else []) ++
  [hexByte (x % 16)]

/-- The groups of an address. -/
def groups : Bytes → List ℕ
  | hi :: lo :: rest => (hi.toNat * 256 + lo.toNat) :: groups rest
  | _ => []

/-- How many zeros there are from a position on. -/
def zerosFrom (gs : List ℕ) (i : ℕ) : ℕ := ((gs.drop i).takeWhile (· = 0)).length

/-- The first of the longest runs of zeros: where it begins and where it ends.  There is none if no
run has two zeros. -/
def longestRun (gs : List ℕ) : Option (ℕ × ℕ) :=
  (List.range 8).foldl
    (fun best i ↦
      let l := zerosFrom gs i
      if 2 ≤ l ∧ (best.map fun r ↦ r.2 - r.1).getD 0 < l then some (i, i + l) else best)
    none

/-- An IPv6 address: its groups, with two colons for the longest run of zeros. -/
def ipv6Text (ip : Bytes) : Bytes :=
  let gs := groups ip
  match longestRun gs with
  | some (start, stop) =>
    joinWith 58 ((gs.take start).map groupText) ++ [58, 58] ++
      joinWith 58 ((gs.drop stop).map groupText)
  | none => joinWith 58 (gs.map groupText)

/-- No bracket. -/
def NoBrackets (text : Bytes) : Prop := (91 : UInt8) ∉ text ∧ (93 : UInt8) ∉ text

theorem NoBrackets.append {x y : Bytes} (hx : NoBrackets x) (hy : NoBrackets y) :
    NoBrackets (x ++ y) :=
  ⟨fun h ↦ (List.mem_append.mp h).elim hx.1 hy.1, fun h ↦ (List.mem_append.mp h).elim hx.2 hy.2⟩

theorem noBrackets_hexByte : ∀ d < 16, hexByte d ≠ 91 ∧ hexByte d ≠ 93 := by
  decide

theorem exists_of_mem_groupText {x : ℕ} {c : UInt8} (hc : c ∈ groupText x) :
    ∃ d < 16, c = hexByte d := by
  have hlt : ∀ y, y % 16 < 16 := fun y ↦ Nat.mod_lt _ (by omega)
  have hdigit : ∀ (y : ℕ) (p : Prop) [Decidable p], c ∈ (if p then [hexByte (y % 16)] else []) →
      ∃ d < 16, c = hexByte d := by
    intro y p _ h
    split at h
    · exact ⟨_, hlt y, List.mem_singleton.mp h⟩
    · cases h
  rw [groupText] at hc
  rcases List.mem_append.mp hc with hc | hc
  · rcases List.mem_append.mp hc with hc | hc
    · rcases List.mem_append.mp hc with hc | hc
      · exact hdigit _ _ hc
      · exact hdigit _ _ hc
    · exact hdigit _ _ hc
  · exact ⟨_, hlt x, List.mem_singleton.mp hc⟩

theorem noBrackets_groupText (x : ℕ) : NoBrackets (groupText x) := by
  refine ⟨fun h ↦ ?_, fun h ↦ ?_⟩
  · obtain ⟨d, hd, heq⟩ := exists_of_mem_groupText h
    exact (noBrackets_hexByte d hd).1 heq.symm
  · obtain ⟨d, hd, heq⟩ := exists_of_mem_groupText h
    exact (noBrackets_hexByte d hd).2 heq.symm

theorem noBrackets_join (gs : List ℕ) : NoBrackets (joinWith 58 (gs.map groupText)) := by
  have hno : ∀ c : UInt8, c ≠ 58 → (∀ x, c ∉ groupText x) →
      c ∉ joinWith 58 (gs.map groupText) := by
    intro c hne hgroup hc
    rcases mem_joinWith hc with heq | ⟨t, ht, hc⟩
    · exact hne heq
    · obtain ⟨x, -, rfl⟩ := List.mem_map.mp ht
      exact hgroup x hc
  exact ⟨hno _ (by decide) fun x ↦ (noBrackets_groupText x).1,
    hno _ (by decide) fun x ↦ (noBrackets_groupText x).2⟩

theorem noBrackets_ipv6Text (ip : Bytes) : NoBrackets (ipv6Text ip) := by
  unfold ipv6Text
  dsimp only
  split
  · have hcolons : NoBrackets [58, 58] := ⟨by decide, by decide⟩
    exact ((noBrackets_join _).append hcolons).append (noBrackets_join _)
  · exact noBrackets_join _

end AddrText
