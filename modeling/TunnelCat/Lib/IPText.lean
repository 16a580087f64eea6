import TunnelCat.Lib.AddrText
import Mathlib.Data.List.TakeWhile

/-!
# Reading IP addresses

How Go reads the text of an IP address (`net.ParseIP`): as four decimal numbers with points between,
or as groups of hexadecimal digits with colons between, where two colons stand for the zeros that
are missing and the last two groups may be written like an IPv4 address.  The result has sixteen
bytes in any case, an IPv4 address being one of IPv6 with a fixed beginning.

The same address can be written in many ways: with capital letters, with zeros in front of a group,
with other zeros left out, and an IPv4 address also as one of IPv6.  What `IP.String` writes is one
of them (`parseIP_ipv4Text`, `parseIP_ipv6Text`).
-/

set_option autoImplicit false

namespace AddrText

/-! ## The parser -/

/-- The loop of `parseIPv4Fields`: the fields so far, the number that is being read, how many digits
it has had, and the rest of the text. -/
def ipv4Fields : Bytes → ℕ → ℕ → Bytes → Option Bytes
  | fields, val, _, [] => if fields.length < 3 then none else some (fields ++ [UInt8.ofNat val])
  | fields, val, digLen, c :: s =>
    if 48 ≤ c.toNat ∧ c.toNat ≤ 57 then
      -- a field does not begin with a zero and go on
      if digLen = 1 ∧ val = 0 then none
      else
        let val := val * 10 + (c.toNat - 48)
        if val > 255 then none else ipv4Fields fields val (digLen + 1) s
    else if c = 46 then
      -- there is a digit before a point, and something after it
      if digLen = 0 ∨ s = [] then none
      else if fields.length = 3 then none
      else ipv4Fields (fields ++ [UInt8.ofNat val]) 0 0 s
    else none

/-- `parseIPv4`. -/
def parseIPv4 (s : Bytes) : Option Bytes := ipv4Fields [] 0 0 s

/-- The value of a hexadecimal digit, in lower or upper case. -/
def hexVal (c : UInt8) : Option ℕ :=
  if 48 ≤ c.toNat ∧ c.toNat ≤ 57 then some (c.toNat - 48)
  else if 97 ≤ c.toNat ∧ c.toNat ≤ 102 then some (c.toNat - 87)
  else if 65 ≤ c.toNat ∧ c.toNat ≤ 70 then some (c.toNat - 55)
  else none

/-- The number that hexadecimal digits stand for. -/
def hexNumber (digits : Bytes) : ℕ := digits.foldl (fun acc c ↦ acc * 16 + (hexVal c).getD 0) 0

/-- The two bytes of a group. -/
def groupBytes (x : ℕ) : Bytes := [UInt8.ofNat (x / 256), UInt8.ofNat (x % 256)]

/-- The loop of `parseIPv6`, which runs as long as there is room for a group: the bytes so far,
where two colons have stood, and the rest of the text. -/
def ipv6Fields : ℕ → Bytes → Option ℕ → Bytes → Option (Bytes × Option ℕ × Bytes)
  | 0, ip, ellipsis, s => some (ip, ellipsis, s)
  | room + 1, ip, ellipsis, s =>
    let digits := s.takeWhile fun c ↦ (hexVal c).isSome
    if digits.length > 4 then none
    else if digits = [] then none
    else
      match s.drop digits.length with
      | [] => some (ip ++ groupBytes (hexNumber digits), ellipsis, [])
      | c :: rest =>
        if c = 46 then
          if ellipsis = none ∧ ip.length ≠ 12 then none
          else if ip.length + 4 > 16 then none
          else (parseIPv4 s).map fun fields ↦ (ip ++ fields, ellipsis, [])
        else
          let ip := ip ++ groupBytes (hexNumber digits)
          if c ≠ 58 then none
          else
            match rest with
            | [] => none
            | d :: rest' =>
              if d = 58 then
                if ellipsis.isSome then none
                else if rest' = [] then some (ip, some ip.length, [])
                else ipv6Fields room ip (some ip.length) rest'
              else ipv6Fields room ip ellipsis (d :: rest')

/-- The end of `parseIPv6`: all of the text has been used, and the zeros that two colons stand for
are put in. -/
def expand : Bytes × Option ℕ × Bytes → Option Bytes
  | (ip, ellipsis, s) =>
    if s ≠ [] then none
    else if ip.length < 16 then
      ellipsis.map fun i ↦ ip.take i ++ List.replicate (16 - ip.length) 0 ++ ip.drop i
    else if ellipsis.isSome then none
    else some ip

/-- `parseIPv6`, of a text without a zone. -/
def parseIPv6 (s : Bytes) : Option Bytes :=
  if s.take 2 = [58, 58] then
    if s.drop 2 = [] then some (List.replicate 16 0)
    else (ipv6Fields 8 [] (some 0) (s.drop 2)).bind expand
  else (ipv6Fields 8 [] none s).bind expand

/-- An IPv4 address in sixteen bytes. -/
def mapped (ip4 : Bytes) : Bytes := List.replicate 10 0 ++ [255, 255] ++ ip4

/-- `net.ParseIP`.  The first mark decides what is read.  With a zone, behind `%`, there is no
address. -/
def parseIP (s : Bytes) : Option Bytes :=
  if 37 ∈ s then none
  else
    match s.find? fun c ↦ c = 46 ∨ c = 58 with
    | none => none
    | some c => if c = 46 then (parseIPv4 s).map mapped else parseIPv6 s

-- two ways to write an address
example : parseIP ("2001:DB8::1".toList.map fun c ↦ UInt8.ofNat c.toNat) =
    parseIP ("2001:0db8:0::01".toList.map fun c ↦ UInt8.ofNat c.toNat) := by decide

/-! ## IPv4 -/

theorem ipv4Fields_digit {fields s : Bytes} {val digLen d : ℕ} (hd : d < 10)
    (hzero : ¬(digLen = 1 ∧ val = 0)) (hval : val * 10 + d ≤ 255) :
    ipv4Fields fields val digLen (UInt8.ofNat (48 + d) :: s) =
      ipv4Fields fields (val * 10 + d) (digLen + 1) s := by
  have hc : (UInt8.ofNat (48 + d)).toNat = 48 + d := by
    rw [UInt8.toNat_ofNat', Nat.mod_eq_of_lt (by omega)]
  rw [ipv4Fields, hc, if_pos ⟨by omega, by omega⟩, if_neg hzero]
  dsimp only
  rw [Nat.add_sub_cancel_left, if_neg (by omega)]

theorem ipv4Fields_point {fields s : Bytes} {val digLen : ℕ} (hdig : digLen ≠ 0) (hs : s ≠ [])
    (hlen : fields.length ≠ 3) :
    ipv4Fields fields val digLen (46 :: s) = ipv4Fields (fields ++ [UInt8.ofNat val]) 0 0 s := by
  rw [ipv4Fields, if_neg (by decide), if_pos rfl, if_neg (by simp [hdig, hs]), if_neg hlen]

theorem decimal_of_lt {n : ℕ} (h : n < 1000) : decimal n =
    if n < 10 then [UInt8.ofNat (48 + n)]
    else if n < 100 then [UInt8.ofNat (48 + n / 10), UInt8.ofNat (48 + n % 10)]
    else [UInt8.ofNat (48 + n / 10 / 10), UInt8.ofNat (48 + n / 10 % 10),
      UInt8.ofNat (48 + n % 10)] := by
  rw [decimal, decimalOnto]
  split
  · rfl
  · rename_i hge
    obtain ⟨fuel, hfuel⟩ : ∃ fuel, n = fuel + 2 := ⟨n - 2, by omega⟩
    nth_rewrite 1 [hfuel]
    rw [decimalOnto]
    split
    · rw [if_pos (by omega)]
    · rw [if_neg (by omega), decimalOnto, if_pos (by omega)]

/-- A byte that was written is read. -/
theorem ipv4Fields_decimal (b : UInt8) (fields s : Bytes) :
    ∃ digLen ≠ 0, ipv4Fields fields 0 0 (decimal b.toNat ++ s) =
      ipv4Fields fields b.toNat digLen s := by
  have hb := b.toNat_lt
  rw [decimal_of_lt (by omega)]
  split
  · rename_i hlt
    refine ⟨1, by decide, ?_⟩
    rw [List.cons_append, List.nil_append, ipv4Fields_digit hlt (by omega) (by omega), Nat.zero_mul,
      Nat.zero_add]
  · rename_i hge
    split
    · refine ⟨2, by decide, ?_⟩
      rw [List.cons_append, List.cons_append, List.nil_append,
        ipv4Fields_digit (by omega) (by omega) (by omega),
        ipv4Fields_digit (by omega) (by omega) (by omega)]
      congr 1
      omega
    · refine ⟨3, by decide, ?_⟩
      rw [List.cons_append, List.cons_append, List.cons_append, List.nil_append,
        ipv4Fields_digit (by omega) (by omega) (by omega),
        ipv4Fields_digit (by omega) (by omega) (by omega),
        ipv4Fields_digit (by omega) (by omega) (by omega)]
      congr 1
      omega

variable {gs : List ℕ} {ip : Bytes} {c : UInt8} {room : ℕ}

theorem ipv4Text_ne_nil (h : ip ≠ []) : ipv4Text ip ≠ [] := by
  obtain ⟨b, ip, rfl⟩ := List.exists_cons_of_ne_nil h
  rw [ipv4Text, List.map_cons]
  cases ip with
  | nil => exact decimal_ne_nil _
  | cons b' ip => exact fun hnil ↦ decimal_ne_nil _ (List.append_eq_nil_iff.mp hnil).1

theorem ipv4Fields_ipv4Text (hne : ip ≠ []) {fields : Bytes}
    (hlen : fields.length + ip.length = 4) :
    ipv4Fields fields 0 0 (ipv4Text ip) = some (fields ++ ip) := by
  induction ip generalizing fields with
  | nil => exact absurd rfl hne
  | cons b ip ih =>
    rw [List.length_cons] at hlen
    cases ip with
    | nil =>
      obtain ⟨digLen, -, hread⟩ := ipv4Fields_decimal b fields []
      rw [List.append_nil] at hread
      have htext : ipv4Text [b] = decimal b.toNat := rfl
      rw [htext, hread, ipv4Fields, if_neg (by simpa using hlen.ge), UInt8.ofNat_toNat]
    | cons b' ip =>
      have htext : ipv4Text (b :: b' :: ip) = decimal b.toNat ++ 46 :: ipv4Text (b' :: ip) := rfl
      have hne' : b' :: ip ≠ [] := List.cons_ne_nil _ _
      obtain ⟨digLen, hdig, hread⟩ := ipv4Fields_decimal b fields (46 :: ipv4Text (b' :: ip))
      rw [List.length_cons] at hlen
      rw [htext, hread, ipv4Fields_point hdig (ipv4Text_ne_nil hne') (by omega),
        ih hne' (by simp; omega), List.append_assoc, UInt8.ofNat_toNat]
      rfl

/-! ## Groups -/

theorem hexVal_hexByte : ∀ d < 16, hexVal (hexByte d) = some d := by
  decide

theorem isSome_hexVal_of_mem {x : ℕ} (h : c ∈ groupText x) :
    (hexVal c).isSome = true := by
  obtain ⟨d, hd, rfl⟩ := exists_of_mem_groupText h
  rw [hexVal_hexByte d hd]
  rfl

/-- A digit is not a mark. -/
theorem ne_of_isSome_hexVal (h : (hexVal c).isSome = true) :
    c ≠ 37 ∧ c ≠ 46 ∧ c ≠ 58 := by
  refine ⟨?_, ?_, ?_⟩
  all_goals
    rintro rfl
    exact absurd h (by decide)

/-- The digits of a group stand for it. -/
theorem hexNumber_groupText {x : ℕ} (hx : x < 65536) : hexNumber (groupText x) = x := by
  have hdigit : ∀ y, (hexVal (hexByte (y % 16))).getD 0 = y % 16 := fun y ↦ by
    rw [hexVal_hexByte _ (Nat.mod_lt _ (by omega)), Option.getD_some]
  rw [groupText, hexNumber]
  simp only [List.foldl_append, List.foldl_cons, List.foldl_nil, hdigit]
  split
  · rw [if_pos (by omega), if_pos (by omega)]
    simp only [List.foldl_cons, List.foldl_nil, hdigit]
    omega
  · split
    · rw [if_pos (by omega)]
      simp only [List.foldl_cons, List.foldl_nil, hdigit]
      omega
    · split
      · simp only [List.foldl_cons, List.foldl_nil, hdigit]
        omega
      · simp only [List.foldl_nil]
        omega

theorem length_groupText (x : ℕ) : 1 ≤ (groupText x).length ∧ (groupText x).length ≤ 4 := by
  have hdigit : ∀ (p : Prop) [Decidable p] (c : UInt8), (if p then [c] else []).length ≤ 1 := by
    intro p _ c
    split
    · exact Nat.le_refl 1
    · exact Nat.zero_le 1
  rw [groupText]
  simp only [List.length_append, List.length_singleton]
  have h3 := hdigit (x ≥ 0x1000) (hexByte (x / 0x1000 % 16))
  have h2 := hdigit (x ≥ 0x100) (hexByte (x / 0x100 % 16))
  have h1 := hdigit (x ≥ 0x10) (hexByte (x / 0x10 % 16))
  omega

theorem groupText_ne_nil (x : ℕ) : groupText x ≠ [] :=
  List.ne_nil_of_length_pos (length_groupText x).1

/-- A group that was written is read, whatever follows, if it is nothing or a colon. -/
theorem ipv6Fields_group {x : ℕ} (hx : x < 65536) (room : ℕ) (ip : Bytes) (ellipsis : Option ℕ)
    {tail : Bytes} (htail : tail = [] ∨ tail.head? = some 58) :
    ipv6Fields (room + 1) ip ellipsis (groupText x ++ tail) =
      let ip := ip ++ groupBytes x
      match tail with
      | [] => some (ip, ellipsis, [])
      | [_] => none
      | _ :: d :: rest =>
        if d = 58 then
          if ellipsis.isSome then none
          else if rest = [] then some (ip, some ip.length, [])
          else ipv6Fields room ip (some ip.length) rest
        else ipv6Fields room ip ellipsis (d :: rest) := by
  have hdigits : (groupText x ++ tail).takeWhile (fun c ↦ (hexVal c).isSome) = groupText x := by
    rw [List.takeWhile_append_of_pos fun c ↦ isSome_hexVal_of_mem]
    cases tail with
    | nil => exact List.append_nil _
    | cons c tail =>
      obtain rfl : c = 58 := by simpa using htail
      rw [List.takeWhile_cons_of_neg (by decide), List.append_nil]
  have hlen := length_groupText x
  rw [ipv6Fields]
  dsimp only
  rw [hdigits, if_neg (by omega), if_neg (groupText_ne_nil x), List.drop_left,
    hexNumber_groupText hx]
  rcases tail with _ | ⟨c, _ | ⟨d, rest⟩⟩
  · rfl
  · obtain rfl : c = 58 := by simpa using htail
    rfl
  · obtain rfl : c = 58 := by simpa using htail
    rfl

/-- The bytes of groups. -/
def bytesOf (gs : List ℕ) : Bytes := gs.flatMap groupBytes

/-- Groups with colons between. -/
def joinGroups (gs : List ℕ) : Bytes := joinWith 58 (gs.map groupText)

theorem joinGroups_cons_cons (x y : ℕ) (gs : List ℕ) :
    joinGroups (x :: y :: gs) = groupText x ++ 58 :: joinGroups (y :: gs) := rfl

theorem exists_joinGroups (x : ℕ) (gs : List ℕ) :
    ∃ c rest, joinGroups (x :: gs) = c :: rest ∧ (hexVal c).isSome = true := by
  obtain ⟨c, rest, hrest⟩ := List.exists_cons_of_ne_nil (groupText_ne_nil x)
  have hc : (hexVal c).isSome = true := isSome_hexVal_of_mem (hrest ▸ List.mem_cons_self ..)
  cases gs with
  | nil => exact ⟨c, rest, hrest, hc⟩
  | cons y gs =>
    refine ⟨c, rest ++ 58 :: joinGroups (y :: gs), ?_, hc⟩
    rw [joinGroups_cons_cons, hrest, List.cons_append]

theorem joinGroups_eq_nil_iff : joinGroups gs = [] ↔ gs = [] := by
  cases gs with
  | nil => exact ⟨fun _ ↦ rfl, fun _ ↦ rfl⟩
  | cons x gs =>
    obtain ⟨c, rest, hjoin, -⟩ := exists_joinGroups x gs
    rw [hjoin]
    simp

theorem bytesOf_append (gs hs : List ℕ) : bytesOf (gs ++ hs) = bytesOf gs ++ bytesOf hs :=
  List.flatMap_append

theorem bytesOf_singleton (x : ℕ) : bytesOf [x] = groupBytes x := List.append_nil _

/-- Groups that were written are read, up to the last one. -/
theorem ipv6Fields_skip (hgs : ∀ y ∈ gs, y < 65536) (x : ℕ) (hroom : gs.length ≤ room) (ip : Bytes)
    (ellipsis : Option ℕ) (tail : Bytes) :
    ipv6Fields room ip ellipsis (joinGroups (gs ++ [x]) ++ tail) =
      ipv6Fields (room - gs.length) (ip ++ bytesOf gs) ellipsis (groupText x ++ tail) := by
  induction gs generalizing room ip with
  | nil =>
    have hbytes : ip ++ bytesOf [] = ip := List.append_nil ip
    rw [hbytes]
    rfl
  | cons y gs ih =>
    obtain ⟨room, rfl⟩ : ∃ r, room = r + 1 := ⟨room - 1, by rw [List.length_cons] at hroom; omega⟩
    -- another group follows, so that there is a colon and then a digit
    obtain ⟨z, more, hmore⟩ := List.exists_cons_of_ne_nil
      (List.append_ne_nil_of_right_ne_nil gs (List.cons_ne_nil x []))
    obtain ⟨c, rest, hjoin, hc⟩ := exists_joinGroups z more
    have hbytes : bytesOf (y :: gs) = groupBytes y ++ bytesOf gs := rfl
    rw [List.cons_append, hmore, joinGroups_cons_cons, List.append_assoc, List.cons_append,
      ipv6Fields_group (hgs y (List.mem_cons_self ..)) room ip ellipsis (.inr rfl), hjoin,
      List.cons_append]
    dsimp only
    rw [if_neg (ne_of_isSome_hexVal hc).2.2, ← List.cons_append, ← hjoin, ← hmore,
      ih (fun w hw ↦ hgs w (List.mem_cons_of_mem _ hw)) (Nat.le_of_succ_le_succ hroom), hbytes,
      List.append_assoc, List.length_cons, Nat.add_sub_add_right]

/-- Groups that were written are read. -/
theorem ipv6Fields_joinGroups (hne : gs ≠ []) (hgs : ∀ x ∈ gs, x < 65536) (hroom : gs.length ≤ room)
    (ip : Bytes) (ellipsis : Option ℕ) :
    ipv6Fields room ip ellipsis (joinGroups gs) = some (ip ++ bytesOf gs, ellipsis, []) := by
  obtain ⟨gs, x, rfl⟩ := (List.eq_nil_or_concat' gs).resolve_left hne
  rw [List.forall_mem_append, List.forall_mem_singleton] at hgs
  rw [List.length_append, List.length_singleton] at hroom
  obtain ⟨left, hleft⟩ : ∃ left, room - gs.length = left + 1 := ⟨room - gs.length - 1, by omega⟩
  have hskip := ipv6Fields_skip hgs.1 x (Nat.le_of_succ_le hroom) ip ellipsis []
  rw [List.append_nil] at hskip
  rw [hskip, hleft, ipv6Fields_group hgs.2 left _ ellipsis (.inl rfl), bytesOf_append,
    bytesOf_singleton, List.append_assoc]

/-- Groups that were written are read up to two colons. -/
theorem ipv6Fields_joinGroups_colons (hne : gs ≠ []) (hgs : ∀ x ∈ gs, x < 65536)
    (hroom : gs.length ≤ room) (ip rest : Bytes) :
    ipv6Fields room ip none (joinGroups gs ++ 58 :: 58 :: rest) =
      if rest = [] then some (ip ++ bytesOf gs, some (ip ++ bytesOf gs).length, [])
      else
        ipv6Fields (room - gs.length) (ip ++ bytesOf gs) (some (ip ++ bytesOf gs).length) rest := by
  obtain ⟨gs, x, rfl⟩ := (List.eq_nil_or_concat' gs).resolve_left hne
  rw [List.forall_mem_append, List.forall_mem_singleton] at hgs
  rw [List.length_append, List.length_singleton] at hroom
  obtain ⟨left, hleft⟩ : ∃ left, room - gs.length = left + 1 := ⟨room - gs.length - 1, by omega⟩
  have hroom' : room - (gs ++ [x]).length = left := by
    rw [List.length_append, List.length_singleton]
    omega
  rw [ipv6Fields_skip hgs.1 x (by omega), hleft, ipv6Fields_group hgs.2 left _ none (.inr rfl),
    hroom', bytesOf_append, bytesOf_singleton, List.append_assoc]
  rfl

/-! ## IPv6 -/

theorem length_bytesOf (gs : List ℕ) : (bytesOf gs).length = 2 * gs.length := by
  induction gs with
  | nil => rfl
  | cons x gs ih =>
    rw [bytesOf, List.flatMap_cons, List.length_append, ← bytesOf, ih, List.length_cons,
      Nat.mul_succ, Nat.add_comm]
    rfl

theorem bytesOf_nil : bytesOf [] = [] := rfl

theorem bytesOf_zeros (n : ℕ) : bytesOf (List.replicate n 0) = List.replicate (2 * n) 0 := by
  induction n with
  | zero => rfl
  | succ n ih =>
    rw [List.replicate_succ, bytesOf, List.flatMap_cons, ← bytesOf, ih, Nat.mul_succ, Nat.add_comm,
      List.replicate_add]
    rfl

/-- The groups of an address, as bytes. -/
theorem groups_spec : ∀ {ip : Bytes} {n : ℕ}, ip.length = 2 * n →
    bytesOf (groups ip) = ip ∧ (groups ip).length = n ∧ ∀ x ∈ groups ip, x < 65536
  | [], n, h => by
    have hn : 0 = 2 * n := h
    exact ⟨rfl, show 0 = n by omega, fun _ hx ↦ absurd hx List.not_mem_nil⟩
  | [_], n, h => by
    have hn : 1 = 2 * n := h
    omega
  | hi :: lo :: rest, n, h => by
    have hrest : rest.length = 2 * (n - 1) := by simp only [List.length_cons] at h; omega
    obtain ⟨hbytes, hlen, hlt⟩ := groups_spec hrest
    have hhi := hi.toNat_lt
    have hlo := lo.toNat_lt
    refine ⟨?_, ?_, fun x hx ↦ ?_⟩
    · rw [groups, bytesOf, List.flatMap_cons, ← bytesOf, hbytes, groupBytes]
      have hdiv : (hi.toNat * 256 + lo.toNat) / 256 = hi.toNat := by omega
      have hmod : (hi.toNat * 256 + lo.toNat) % 256 = lo.toNat := by omega
      rw [hdiv, hmod, UInt8.ofNat_toNat, UInt8.ofNat_toNat]
      rfl
    · rw [groups, List.length_cons, hlen]
      simp only [List.length_cons] at h
      omega
    · rw [groups] at hx
      rcases List.mem_cons.mp hx with rfl | hx
      · omega
      · exact hlt x hx

theorem drop_eq_zeros_append (gs : List ℕ) (i : ℕ) :
    gs.drop i = List.replicate (zerosFrom gs i) 0 ++ gs.drop (i + zerosFrom gs i) := by
  have hzeros : (gs.drop i).takeWhile (· = 0) = List.replicate (zerosFrom gs i) 0 := by
    refine List.eq_replicate_iff.mpr ⟨rfl, fun x hx ↦ ?_⟩
    simpa using List.mem_takeWhile_imp hx
  have hsplit := List.takeWhile_append_dropWhile (p := (· = 0)) (l := gs.drop i)
  have hdrop : (gs.drop i).drop (zerosFrom gs i) = (gs.drop i).dropWhile (· = 0) := by
    nth_rewrite 1 [← hsplit]
    exact List.drop_left' rfl
  rw [← List.drop_drop, hdrop, ← hzeros, hsplit]

/-- A run of zeros that is left out. -/
theorem longestRun_spec {i j : ℕ} (h : longestRun gs = some (i, j)) :
    i + 2 ≤ j ∧ gs = gs.take i ++ List.replicate (j - i) 0 ++ gs.drop j := by
  have hinv : ∀ r, longestRun gs = some r → r.1 + 2 ≤ r.2 ∧ r.2 = r.1 + zerosFrom gs r.1 := by
    rw [longestRun]
    refine List.foldlRecOn (motive := fun best : Option (ℕ × ℕ) ↦ ∀ r, best = some r →
      r.1 + 2 ≤ r.2 ∧ r.2 = r.1 + zerosFrom gs r.1) (List.range 8) _ ?_ ?_
    · intro r hr
      exact absurd hr (by simp)
    intro best hbest k _ r hr
    dsimp only at hr
    split at hr
    · rename_i hlonger
      rw [← Option.some.inj hr]
      exact ⟨Nat.add_le_add_left hlonger.1 k, rfl⟩
    · exact hbest r hr
  obtain ⟨hle, hrun⟩ := hinv (i, j) h
  dsimp only at hle hrun
  refine ⟨hle, ?_⟩
  have hlen : j - i = zerosFrom gs i := by omega
  rw [hlen, List.append_assoc, hrun, ← drop_eq_zeros_append, List.take_append_drop]

/-- What is left out is put in again. -/
theorem expand_bytesOf {i j : ℕ} (hlen : gs.length = 8) (hij : i + 2 ≤ j) (hj : j ≤ 8)
    (hgs : gs = gs.take i ++ List.replicate (j - i) 0 ++ gs.drop j) :
    expand (bytesOf (gs.take i) ++ bytesOf (gs.drop j), some (bytesOf (gs.take i)).length, []) =
      some (bytesOf gs) := by
  have hi : (bytesOf (gs.take i)).length = 2 * i := by
    rw [length_bytesOf, List.length_take]
    omega
  have hall : (bytesOf (gs.take i) ++ bytesOf (gs.drop j)).length = 2 * i + 2 * (8 - j) := by
    rw [List.length_append, hi, length_bytesOf, List.length_drop]
    omega
  have hzeros : 16 - (2 * i + 2 * (8 - j)) = 2 * (j - i) := by omega
  rw [expand, if_neg (not_not_intro rfl), if_pos (by omega), Option.map_some, hall, hzeros,
    List.take_left, List.drop_left, ← bytesOf_zeros, ← bytesOf_append, ← bytesOf_append, ← hgs]

theorem take_two_ne (hne : gs ≠ []) (rest : Bytes) :
    (joinGroups gs ++ rest).take 2 ≠ [58, 58] := by
  obtain ⟨x, gs, rfl⟩ := List.exists_cons_of_ne_nil hne
  obtain ⟨c, more, hjoin, hc⟩ := exists_joinGroups x gs
  rw [hjoin, List.cons_append, List.take_succ_cons]
  exact fun h ↦ (ne_of_isSome_hexVal hc).2.2 (List.cons.inj h).1

theorem parseIPv6_colons (s : Bytes) :
    parseIPv6 (58 :: 58 :: s) =
      if s = [] then some (List.replicate 16 0) else (ipv6Fields 8 [] (some 0) s).bind expand :=
  if_pos rfl

/-- Two colons for a run of zeros are read. -/
theorem parseIPv6_run (hlen : gs.length = 8) (hlt : ∀ x ∈ gs, x < 65536) {i j : ℕ} (hij : i + 2 ≤ j)
    (hgs : gs = gs.take i ++ List.replicate (j - i) 0 ++ gs.drop j) :
    parseIPv6 (joinGroups (gs.take i) ++ [58, 58] ++ joinGroups (gs.drop j)) =
      some (bytesOf gs) := by
  have hj : j ≤ 8 := by
    have hsum := congrArg List.length hgs
    simp only [List.length_append, List.length_take, List.length_replicate, List.length_drop,
      hlen] at hsum
    omega
  have hexpand := expand_bytesOf hlen hij hj hgs
  have htake : ∀ x ∈ gs.take i, x < 65536 := fun x hx ↦ hlt x (List.mem_of_mem_take hx)
  have hdrop : ∀ x ∈ gs.drop j, x < 65536 := fun x hx ↦ hlt x (List.mem_of_mem_drop hx)
  have hroom : (gs.drop j).length ≤ 8 - (gs.take i).length := by
    rw [List.length_drop, List.length_take]
    omega
  rw [List.append_assoc]
  by_cases hi : gs.take i = []
  · -- the text begins with the colons
    rw [hi] at hexpand hroom ⊢
    have htext : joinGroups [] ++ ([58, 58] ++ joinGroups (gs.drop j)) =
        58 :: 58 :: joinGroups (gs.drop j) := rfl
    rw [htext, parseIPv6_colons]
    split
    · rename_i hnil
      rw [joinGroups_eq_nil_iff] at hnil
      rw [hnil] at hexpand
      exact hexpand
    · rename_i hne
      rw [joinGroups_eq_nil_iff] at hne
      have hroom8 : (gs.drop j).length ≤ 8 := hroom
      rw [ipv6Fields_joinGroups hne hdrop hroom8]
      exact hexpand
  · have htext : [58, 58] ++ joinGroups (gs.drop j) = 58 :: 58 :: joinGroups (gs.drop j) := rfl
    have hfirst : (gs.take i).length ≤ 8 := by
      rw [List.length_take]
      omega
    rw [parseIPv6, if_neg (take_two_ne hi _), htext,
      ipv6Fields_joinGroups_colons hi htake hfirst, List.nil_append]
    split
    · rename_i hnil
      rw [joinGroups_eq_nil_iff] at hnil
      rw [hnil, bytesOf_nil, List.append_nil] at hexpand
      exact hexpand
    · rename_i hne
      rw [joinGroups_eq_nil_iff] at hne
      rw [ipv6Fields_joinGroups hne hdrop hroom]
      exact hexpand

/-- **What `IP.String` writes of an IPv6 address is read.** -/
theorem parseIPv6_ipv6Text (h : ip.length = 16) :
    parseIPv6 (ipv6Text ip) = some ip := by
  obtain ⟨hbytes, hlen, hlt⟩ := groups_spec (n := 8) h
  rw [ipv6Text]
  cases hrun : longestRun (groups ip) with
  | none =>
    have hne : groups ip ≠ [] := List.ne_nil_of_length_pos (by omega)
    have hstart := take_two_ne hne []
    rw [List.append_nil] at hstart
    dsimp only
    rw [← joinGroups, parseIPv6, if_neg hstart, ipv6Fields_joinGroups hne hlt (by omega),
      Option.bind_some, List.nil_append, hbytes, expand, if_neg (not_not_intro rfl),
      if_neg (by omega)]
    rfl
  | some r =>
    obtain ⟨hij, hgs⟩ := longestRun_spec (i := r.1) (j := r.2) hrun
    exact (parseIPv6_run hlen hlt hij hgs).trans (congrArg some hbytes)

/-! ## Either -/

/-- A text with marks of one kind is read as what they are the marks of. -/
theorem parseIP_of_mem {s : Bytes} {m : UInt8} (hzone : 37 ∉ s) (hm : m ∈ s)
    (hmark : m = 46 ∨ m = 58) (honly : ∀ c ∈ s, c = 46 ∨ c = 58 → c = m) :
    parseIP s = if m = 46 then (parseIPv4 s).map mapped else parseIPv6 s := by
  have hfind : s.find? (fun c ↦ c = 46 ∨ c = 58) = some m := by
    cases hfind : s.find? (fun c ↦ c = 46 ∨ c = 58) with
    | none => exact absurd hmark (by simpa using List.find?_eq_none.mp hfind m hm)
    | some c =>
      have hc : c = 46 ∨ c = 58 := by simpa using List.find?_some hfind
      rw [honly c (List.mem_of_find?_eq_some hfind) hc]
  rw [parseIP, if_neg hzone, hfind]

/-- **What `IP.String` writes of an IPv4 address is read.** -/
theorem parseIP_ipv4Text {ip4 : Bytes} (h : ip4.length = 4) :
    parseIP (ipv4Text ip4) = some (mapped ip4) := by
  have hne : ip4 ≠ [] := List.ne_nil_of_length_pos (by omega)
  have hdigit : ∀ c : UInt8, IsDigit c → c ≠ 37 ∧ c ≠ 46 ∧ c ≠ 58 := by
    intro c hc
    rw [IsDigit] at hc
    refine ⟨?_, ?_, ?_⟩
    all_goals
      rintro rfl
      exact absurd hc (by decide)
  have hpoint : 46 ∈ ipv4Text ip4 := by
    obtain ⟨a, b, rest, rfl⟩ : ∃ a b rest, ip4 = a :: b :: rest := by
      rcases ip4 with _ | ⟨a, _ | ⟨b, rest⟩⟩
      · exact absurd rfl hne
      · exact absurd h (by simp)
      · exact ⟨a, b, rest, rfl⟩
    exact List.mem_append_right _ (List.mem_cons_self ..)
  rw [parseIP_of_mem (m := 46) ?_ hpoint (.inl rfl) ?_, if_pos rfl, parseIPv4,
    ipv4Fields_ipv4Text hne (by simpa using h)]
  · rfl
  · intro hmem
    rcases isDigit_or_of_mem_ipv4Text hmem with hc | hc
    · exact (hdigit _ hc).1 rfl
    · exact absurd hc (by decide)
  · rintro c hmem (hc | hc)
    · exact hc
    · exact (isDigit_or_of_mem_ipv4Text hmem).resolve_left fun hd ↦ (hdigit c hd).2.2 hc

theorem isSome_or_of_mem_joinGroups (h : c ∈ joinGroups gs) :
    (hexVal c).isSome = true ∨ c = 58 := by
  rcases mem_joinWith h with rfl | ⟨x, hx, hc⟩
  · exact .inr rfl
  · obtain ⟨g, -, rfl⟩ := List.mem_map.mp hx
    exact .inl (isSome_hexVal_of_mem hc)

theorem isSome_or_of_mem_ipv6Text (h : c ∈ ipv6Text ip) :
    (hexVal c).isSome = true ∨ c = 58 := by
  rw [ipv6Text] at h
  split at h
  · rcases List.mem_append.mp h with h | h
    · rcases List.mem_append.mp h with h | h
      · exact isSome_or_of_mem_joinGroups h
      · exact .inr (by simpa using h)
    · exact isSome_or_of_mem_joinGroups h
  · exact isSome_or_of_mem_joinGroups h

theorem parseIP_ipv6Text (h : ip.length = 16) : parseIP (ipv6Text ip) = some ip := by
  have hcolon : 58 ∈ ipv6Text ip := by
    rw [ipv6Text]
    split
    · simp
    · obtain ⟨-, hlen, -⟩ := groups_spec (n := 8) h
      rcases hgs : groups ip with _ | ⟨x, _ | ⟨y, gs⟩⟩
      · exact absurd hlen (by simp [hgs])
      · exact absurd hlen (by simp [hgs])
      · exact List.mem_append_right _ (List.mem_cons_self ..)
  rw [parseIP_of_mem (m := 58) ?_ hcolon (.inr rfl) ?_, if_neg (by decide), parseIPv6_ipv6Text h]
  · intro hmem
    rcases isSome_or_of_mem_ipv6Text hmem with hc | hc
    · exact (ne_of_isSome_hexVal hc).1 rfl
    · exact absurd hc (by decide)
  · rintro c hmem (hc | hc)
    · exact (isSome_or_of_mem_ipv6Text hmem).resolve_left fun hd ↦ (ne_of_isSome_hexVal hd).2.1 hc
    · exact hc

/-! ## What is read -/

theorem length_of_ipv4Fields {fields s r : Bytes} {val digLen : ℕ} (hfields : fields.length ≤ 3)
    (h : ipv4Fields fields val digLen s = some r) : r.length = 4 := by
  induction s generalizing fields val digLen with
  | nil =>
    rw [ipv4Fields] at h
    split at h
    · exact absurd h (by simp)
    · rw [← Option.some.inj h, List.length_append, List.length_singleton]
      omega
  | cons c s ih =>
    rw [ipv4Fields] at h
    split at h
    · split at h
      · exact absurd h (by simp)
      · dsimp only at h
        split at h
        · exact absurd h (by simp)
        · exact ih hfields h
    · split at h
      · split at h
        · exact absurd h (by simp)
        · split at h
          · exact absurd h (by simp)
          · refine ih ?_ h
            rw [List.length_append, List.length_singleton]
            omega
      · exact absurd h (by simp)

theorem length_of_parseIPv4 {s r : Bytes} (h : parseIPv4 s = some r) : r.length = 4 := by
  have hnil : ([] : Bytes).length ≤ 3 := Nat.zero_le 3
  exact length_of_ipv4Fields hnil h

theorem length_of_ipv6Fields {ip s : Bytes} {ellipsis : Option ℕ} {r : Bytes × Option ℕ × Bytes}
    (hip : ip.length + 2 * room ≤ 16) (h : ipv6Fields room ip ellipsis s = some r) :
    r.1.length ≤ 16 := by
  induction room generalizing ip ellipsis s with
  | zero =>
    rw [ipv6Fields, Option.some_inj] at h
    rw [← h]
    exact hip
  | succ room ih =>
    have hgroup : ∀ x, (ip ++ groupBytes x).length + 2 * room ≤ 16 := by
      intro x
      rw [List.length_append]
      show ip.length + 2 + 2 * room ≤ 16
      omega
    rw [ipv6Fields] at h
    dsimp only at h
    split at h
    · exact absurd h (by simp)
    split at h
    · exact absurd h (by simp)
    split at h
    · rw [← Option.some.inj h]
      exact le_trans (Nat.le_add_right _ _) (hgroup _)
    split at h
    · -- the last two groups like an IPv4 address
      split at h
      · exact absurd h (by simp)
      split at h
      · exact absurd h (by simp)
      · rename_i hfit
        obtain ⟨fields, hfields, rfl⟩ := Option.map_eq_some_iff.mp h
        rw [List.length_append, length_of_parseIPv4 hfields]
        omega
    split at h
    · exact absurd h (by simp)
    split at h
    · exact absurd h (by simp)
    split at h
    · split at h
      · exact absurd h (by simp)
      split at h
      · rw [← Option.some.inj h]
        exact le_trans (Nat.le_add_right _ _) (hgroup _)
      · exact ih (hgroup _) h
    · exact ih (hgroup _) h

theorem length_of_expand {r : Bytes × Option ℕ × Bytes} (hr : r.1.length ≤ 16)
    (h : expand r = some ip) : ip.length = 16 := by
  obtain ⟨bytes, ellipsis, s⟩ := r
  rw [expand] at h
  split at h
  · exact absurd h (by simp)
  split at h
  · rename_i hlt
    obtain ⟨i, -, rfl⟩ := Option.map_eq_some_iff.mp h
    simp only [List.length_append, List.length_take, List.length_replicate, List.length_drop]
    omega
  split at h
  · exact absurd h (by simp)
  · rename_i hge _
    rw [← Option.some.inj h]
    exact le_antisymm hr (Nat.not_lt.mp hge)

/-- **An address that is read has sixteen bytes.** -/
theorem length_of_parseIP {s ip : Bytes} (h : parseIP s = some ip) : ip.length = 16 := by
  have hloop : ∀ {ellipsis s}, (ipv6Fields 8 [] ellipsis s).bind expand = some ip →
      ip.length = 16 := by
    intro ellipsis s hbind
    obtain ⟨r, hr, hexpand⟩ := Option.bind_eq_some_iff.mp hbind
    exact length_of_expand (length_of_ipv6Fields (Nat.le_refl 16) hr) hexpand
  rw [parseIP] at h
  split at h
  · exact absurd h (by simp)
  split at h
  · exact absurd h (by simp)
  split at h
  · obtain ⟨fields, hfields, rfl⟩ := Option.map_eq_some_iff.mp h
    rw [mapped, List.length_append, length_of_parseIPv4 hfields]
    rfl
  · rw [parseIPv6] at h
    split at h
    · split at h
      · rw [← Option.some.inj h, List.length_replicate]
      · exact hloop h
    · exact hloop h

end AddrText
