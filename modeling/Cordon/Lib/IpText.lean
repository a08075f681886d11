import Mathlib.Data.List.Basic
import Cordon.Lib.Text

/-!
# Internet addresses, as text

The textual forms of IP and socket addresses, read the way the standard library reads them: from
left to right, without going back over what was read, an IPv6 address with at most one `::` and an
IPv4 address allowed at its end.

What two readings of one text have in common is a matter of where each of them stops. A character
that a reader cannot use ends its text for it: **it reads no further, whatever follows**
(`EndsAt`). That is kept by sequencing and by alternatives, and a reader that used up a whole text
met no such character in it.

Nothing is proved about which addresses there are: what the modelled checks need is where a text
ends, and that is what `EndsAt` and its rules are for. `host_of_parseSocketAddr` is put together
from them, with the numbers of a port and of an address as they are printed.
-/

namespace IpText

open Text

/-- A reader takes a value off the front of a text, or takes nothing. -/
abbrev Reader : Type → Type :=
  StateT (List Char) Option

/-- An IP address: four bytes, or eight groups of sixteen bits. -/
inductive IpAddr
  | v4 (octets : List ℕ)
  | v6 (groups : List ℕ)
  deriving DecidableEq, Repr

/-- Whether an address is a loopback address. -/
def IpAddr.isLoopback : IpAddr → Bool
  | .v4 octets => octets.head? = some 127
  | .v6 groups => groups = [0, 0, 0, 0, 0, 0, 0, 1]

/-! ### Readers -/

/-- The value of a digit in a radix of at most sixteen. -/
def toDigit (radix : ℕ) (c : Char) : Option ℕ :=
  (hexValue c).filter (· < radix)

/-- `read_given_char`. -/
def givenChar (c : Char) : Reader Unit
  | [] => none
  | d :: cs => if d = c then some ((), cs) else none

/-- `read_number`: as many digits as there are, and no more of them than `maxDigits`; their value is
to be below `bound`. -/
def number (radix : ℕ) (maxDigits : Option ℕ) (bound : ℕ) (allowZeroPrefix : Bool) : Reader ℕ :=
  fun cs ↦
    let digits := cs.takeWhile fun c ↦ (toDigit radix c).isSome
    let value := digits.foldl (fun n c ↦ n * radix + (toDigit radix c).getD 0) 0
    if digits = [] ∨ maxDigits.any (· < digits.length) ∨
        (allowZeroPrefix = false ∧ digits.head? = some '0' ∧ 1 < digits.length) ∨ bound ≤ value then
      none
    else some (value, cs.drop digits.length)

/-- `read_separator`: what comes first has none in front. -/
def separated {α : Type} (c : Char) (i : ℕ) (r : Reader α) : Reader α := do
  if 0 < i then givenChar c
  r

/-- One byte of an IPv4 address. -/
def octet : Reader ℕ :=
  number 10 (some 3) 256 false

/-- `read_ipv4_addr`. -/
def readIpv4 : Reader (List ℕ) := do
  let a ← separated '.' 0 octet
  let b ← separated '.' 1 octet
  let c ← separated '.' 2 octet
  let d ← separated '.' 3 octet
  return [a, b, c, d]

/-- One group of an IPv6 address. -/
def group : Reader ℕ :=
  number 16 (some 4) 65536 true

/-- The two groups that an embedded IPv4 address is. -/
def groupsOf : List ℕ → List ℕ
  | [a, b, c, d] => [a * 256 + b, c * 256 + d]
  | _ => []

/-- `read_groups`: as many groups as there are, `i` having been read and at most `left` to come, and
whether an IPv4 address ended them. Such an address takes the room of two groups. -/
def readGroups : (left i : ℕ) → Reader (List ℕ × Bool)
  | 0, _ => return ([], false)
  | left + 1, i =>
      (if left = 0 then failure
      else do
        let octets ← separated ':' i readIpv4
        return (groupsOf octets, true)) <|>
      (do
        let g ← separated ':' i group
        let (groups, ipv4) ← readGroups left (i + 1)
        return (g :: groups, ipv4)) <|>
      return ([], false)

/-- `read_ipv6_addr`. -/
def readIpv6 : Reader (List ℕ) := do
  let (head, ipv4) ← readGroups 8 0
  if head.length = 8 then return head
  else if ipv4 then failure
  else do
    givenChar ':'
    givenChar ':'
    let (tail, _) ← readGroups (7 - head.length) 0
    return head ++ List.replicate (8 - head.length - tail.length) 0 ++ tail

/-- `read_ip_addr`. -/
def readIp : Reader IpAddr :=
  (IpAddr.v4 <$> readIpv4) <|> (IpAddr.v6 <$> readIpv6)

/-- `read_port`. -/
def readPort : Reader ℕ := do
  givenChar ':'
  number 10 none 65536 true

/-- `read_scope_id`. -/
def readScopeId : Reader ℕ := do
  givenChar '%'
  number 10 none (2 ^ 32) true

/-- An IPv6 address with the zone it may name. -/
def readScopedIpv6 : Reader (List ℕ × Option ℕ) := do
  let groups ← readIpv6
  let scope ← (some <$> readScopeId) <|> return none
  return (groups, scope)

/-- A socket address. -/
structure SocketAddr where
  ip : IpAddr
  port : ℕ
  deriving DecidableEq, Repr

/-- `read_socket_addr_v4`. -/
def readSocketV4 : Reader SocketAddr := do
  let octets ← readIpv4
  let port ← readPort
  return ⟨.v4 octets, port⟩

/-- `read_socket_addr_v6`. -/
def readSocketV6 : Reader SocketAddr := do
  givenChar '['
  let (groups, _) ← readScopedIpv6
  givenChar ']'
  let port ← readPort
  return ⟨.v6 groups, port⟩

/-- `parse_with`: a text is read when nothing of it is left. -/
def parseWith {α : Type} (r : Reader α) (cs : List Char) : Option α :=
  match r.run cs with
  | some (a, []) => some a
  | _ => none

/-- A text as an IP address. -/
def parseIp : List Char → Option IpAddr :=
  parseWith readIp

/-- A text as a socket address. -/
def parseSocketAddr : List Char → Option SocketAddr :=
  parseWith (readSocketV4 <|> readSocketV6)

example : parseIp "::ffff:10.0.0.1".toList = some (.v6 [0, 0, 0, 0, 0, 65535, 2560, 1]) ∧
    parseIp "127.0.0.01".toList = none := by
  decide +kernel

example : parseSocketAddr "[::1]:8478".toList = some ⟨.v6 [0, 0, 0, 0, 0, 0, 0, 1], 8478⟩ ∧
    parseSocketAddr "::1:8478".toList = none := by
  decide +kernel

theorem parseWith_eq_some {α : Type} {r : Reader α} {cs : List Char} {a : α} :
    parseWith r cs = some a ↔ r.run cs = some (a, []) := by
  rw [parseWith]
  rcases r.run cs with - | ⟨b, - | ⟨c, rest⟩⟩ <;> simp

theorem run_orElse {α : Type} (r r' : Reader α) (cs : List Char) :
    (r <|> r').run cs = (r.run cs <|> r'.run cs) :=
  rfl

theorem run_givenChar {c d : Char} {cs : List Char} {p : Unit × List Char} :
    (givenChar c).run (d :: cs) = some p ↔ d = c ∧ ((), cs) = p := by
  change (if d = c then some ((), cs) else none) = some p ↔ _
  split <;> simp [*]

/-! ### Where a reader stops -/

/-- A character ends a reader's text: it and what follows it are left over, and change nothing. -/
structure EndsAt {α : Type} (c : Char) (r : Reader α) : Prop where
  suffix : ∀ {cs rest : List Char} {a : α}, r.run cs = some (a, rest) → rest <:+ cs
  before : ∀ {cs : List Char} (t : List Char), c ∉ cs →
    r.run (cs ++ c :: t) = (r.run cs).map fun p ↦ (p.1, p.2 ++ c :: t)

namespace EndsAt

variable {α β : Type} {c : Char} {r r' : Reader α} {f : α → Reader β}

/-- **What a reader used up holds none of the characters that end it.** -/
theorem not_mem (h : EndsAt c r) {cs : List Char} {a : α} (hrun : r.run cs = some (a, [])) :
    c ∉ cs := by
  intro hmem
  obtain ⟨x, t, rfl, hx⟩ := List.eq_append_cons_of_mem hmem
  rw [h.before t hx, Option.map_eq_some_iff] at hrun
  obtain ⟨p, -, hp⟩ := hrun
  simpa using congrArg Prod.snd hp

/-- What is left of a text without the character is without it too. -/
theorem not_mem_rest (h : EndsAt c r) {cs rest : List Char} {a : α} (hcs : c ∉ cs)
    (hrun : r.run cs = some (a, rest)) : c ∉ rest :=
  fun hmem ↦ hcs ((h.suffix hrun).subset hmem)

theorem pure (a : α) : EndsAt c (Pure.pure a : Reader α) where
  suffix hrun := by
    obtain ⟨-, rfl⟩ := Prod.mk.inj (Option.some.inj hrun)
    exact List.suffix_rfl
  before _ _ := rfl

theorem failure : EndsAt c (Alternative.failure : Reader α) where
  suffix hrun := by cases hrun
  before _ _ := rfl

theorem bind (h : EndsAt c r) (hf : ∀ a, EndsAt c (f a)) : EndsAt c (r >>= f) where
  suffix hrun := by
    rw [StateT.run_bind, Option.bind_eq_bind, Option.bind_eq_some_iff] at hrun
    obtain ⟨⟨a, mid⟩, hr, hfa⟩ := hrun
    exact ((hf a).suffix hfa).trans (h.suffix hr)
  before {cs} t hcs := by
    simp only [StateT.run_bind, Option.bind_eq_bind, h.before t hcs]
    rcases hr : r.run cs with - | ⟨a, mid⟩
    · rfl
    · exact (hf a).before t (h.not_mem_rest hcs hr)

theorem map (h : EndsAt c r) (g : α → β) : EndsAt c (g <$> r) where
  suffix hrun := by
    rw [StateT.run_map, Option.map_eq_map, Option.map_eq_some_iff] at hrun
    obtain ⟨⟨a, mid⟩, hr, hg⟩ := hrun
    obtain ⟨-, rfl⟩ := Prod.mk.inj hg
    exact h.suffix hr
  before {cs} t hcs := by
    simp only [StateT.run_map, Option.map_eq_map, h.before t hcs]
    rcases r.run cs with - | p <;> rfl

theorem orElse (h : EndsAt c r) (h' : EndsAt c r') : EndsAt c (r <|> r') where
  suffix {cs rest a} hrun := by
    rw [run_orElse] at hrun
    rcases hr : r.run cs with - | p
    · rw [hr] at hrun
      exact h'.suffix hrun
    · rw [hr] at hrun
      exact h.suffix (hr.trans hrun)
  before {cs} t hcs := by
    rw [run_orElse, run_orElse, h.before t hcs, h'.before t hcs]
    rcases r.run cs with - | p <;> rfl

end EndsAt

variable {α : Type} {c : Char}

theorem endsAt_givenChar {d : Char} (h : d ≠ c) : EndsAt c (givenChar d) where
  suffix {cs rest a} hrun := by
    rcases cs with - | ⟨e, cs⟩
    · cases hrun
    · obtain ⟨-, hrest⟩ := run_givenChar.1 hrun
      exact (Prod.mk.inj hrest).2 ▸ List.suffix_cons e cs
  before {cs} t hcs := by
    rcases cs with - | ⟨e, cs⟩
    · exact if_neg h.symm
    · change (if e = d then some ((), cs ++ c :: t) else none) =
        Option.map _ (if e = d then some ((), cs) else none)
      split <;> rfl

theorem endsAt_number {radix bound : ℕ} {maxDigits : Option ℕ} {allowZeroPrefix : Bool}
    (h : toDigit radix c = none) : EndsAt c (number radix maxDigits bound allowZeroPrefix) where
  suffix {cs rest a} hrun := by
    rw [StateT.run, number] at hrun
    split at hrun
    · cases hrun
    · obtain ⟨-, rfl⟩ := Prod.mk.inj (Option.some.inj hrun)
      exact List.drop_suffix _ _
  before {cs} t hcs := by
    have hdigits : ((cs ++ c :: t).takeWhile fun c ↦ (toDigit radix c).isSome) =
        cs.takeWhile fun c ↦ (toDigit radix c).isSome := by
      rw [List.takeWhile_append]
      split
      · next hall =>
        rw [List.takeWhile_cons_of_neg (by simp [h]), List.append_nil]
        exact ((List.takeWhile_prefix _).eq_of_length hall).symm
      · rfl
    have hdrop : (cs ++ c :: t).drop (cs.takeWhile fun c ↦ (toDigit radix c).isSome).length =
        cs.drop (cs.takeWhile fun c ↦ (toDigit radix c).isSome).length ++ c :: t :=
      List.drop_append_of_le_length (List.takeWhile_prefix _).length_le
    simp only [StateT.run, number, hdigits, hdrop]
    split <;> rfl

theorem endsAt_separated {r : Reader α} {d : Char} (hd : d ≠ c) (h : EndsAt c r) (i : ℕ) :
    EndsAt c (separated d i r) := by
  rw [separated]
  split
  · exact (endsAt_givenChar hd).bind fun _ ↦ h
  · exact (EndsAt.pure ()).bind fun _ ↦ h

theorem endsAt_readIpv4 (hdigit : toDigit 10 c = none) (hdot : '.' ≠ c) : EndsAt c readIpv4 :=
  have hoctet : EndsAt c octet := endsAt_number hdigit
  (endsAt_separated hdot hoctet 0).bind fun _ ↦ (endsAt_separated hdot hoctet 1).bind fun _ ↦
    (endsAt_separated hdot hoctet 2).bind fun _ ↦ (endsAt_separated hdot hoctet 3).bind fun _ ↦
      .pure _

theorem endsAt_readGroups (hhex : toDigit 16 c = none) (hdigit : toDigit 10 c = none)
    (hdot : '.' ≠ c) (hcolon : ':' ≠ c) (left i : ℕ) : EndsAt c (readGroups left i) := by
  induction left generalizing i with
  | zero => exact .pure _
  | succ left ih =>
    refine .orElse ?_ (.orElse ?_ (.pure _))
    · split
      · exact .failure
      · exact (endsAt_separated hcolon (endsAt_readIpv4 hdigit hdot) i).bind fun _ ↦ .pure _
    · exact (endsAt_separated hcolon (endsAt_number hhex) i).bind fun _ ↦ (ih (i + 1)).bind
        fun _ ↦ .pure _

theorem endsAt_readIpv6 (hhex : toDigit 16 c = none) (hdigit : toDigit 10 c = none)
    (hdot : '.' ≠ c) (hcolon : ':' ≠ c) : EndsAt c readIpv6 := by
  refine (endsAt_readGroups hhex hdigit hdot hcolon 8 0).bind fun p ↦ ?_
  dsimp only
  split
  · exact .pure _
  split
  · exact .failure
  · exact (endsAt_givenChar hcolon).bind fun _ ↦ (endsAt_givenChar hcolon).bind fun _ ↦
      (endsAt_readGroups hhex hdigit hdot hcolon _ 0).bind fun _ ↦ .pure _

theorem endsAt_readIp (hhex : toDigit 16 c = none) (hdigit : toDigit 10 c = none)
    (hdot : '.' ≠ c) (hcolon : ':' ≠ c) : EndsAt c readIp :=
  ((endsAt_readIpv4 hdigit hdot).map _).orElse ((endsAt_readIpv6 hhex hdigit hdot hcolon).map _)

theorem endsAt_readScopedIpv6 (hhex : toDigit 16 c = none) (hdigit : toDigit 10 c = none)
    (hdot : '.' ≠ c) (hcolon : ':' ≠ c) (hpercent : '%' ≠ c) : EndsAt c readScopedIpv6 :=
  (endsAt_readIpv6 hhex hdigit hdot hcolon).bind fun _ ↦
    ((((endsAt_givenChar hpercent).bind fun _ ↦ endsAt_number hdigit).map _).orElse
      (.pure _)).bind fun _ ↦ .pure _

/-- A port takes one colon and the digits after it. -/
theorem readPort_eq_some {cs : List Char} {port : ℕ} (h : readPort.run cs = some (port, [])) :
    ∃ digits, cs = ':' :: digits ∧ ∀ c ∈ digits, (toDigit 10 c).isSome := by
  rcases cs with - | ⟨d, digits⟩
  · cases h
  rw [readPort, StateT.run_bind, Option.bind_eq_bind, Option.bind_eq_some_iff] at h
  obtain ⟨p, hcolon, hnumber⟩ := h
  obtain ⟨rfl, rfl⟩ := run_givenChar.1 hcolon
  refine ⟨digits, rfl, fun c hc ↦ ?_⟩
  by_contra hnone
  exact (endsAt_number (Option.not_isSome_iff_eq_none.1 hnone)).not_mem hnumber hc

/-! ### Addresses within addresses -/

/-- A text that reads as an IPv6 address does not read as an IPv4 address. -/
theorem readIpv4_eq_none {cs : List Char} {p : List ℕ × List Char} (h : readIpv6.run cs = some p) :
    readIpv4.run cs = none := by
  by_contra hsome
  obtain ⟨⟨octets, rest⟩, hv4⟩ := Option.ne_none_iff_exists'.1 hsome
  have hgroups : (readGroups 8 0).run cs = some ((groupsOf octets, true), rest) := by
    have hseparated : (separated ':' 0 readIpv4).run cs = some (octets, rest) := hv4
    rw [readGroups, run_orElse, if_neg (by decide), StateT.run_bind, hseparated]
    rfl
  have hshort : (groupsOf octets).length ≠ 8 := by
    unfold groupsOf
    split <;> simp
  rw [readIpv6, StateT.run_bind, hgroups] at h
  dsimp only [Option.bind_eq_bind, Option.bind_some] at h
  rw [if_neg hshort, if_pos rfl] at h
  cases h

theorem parseIp_of_readIpv4 {cs : List Char} {octets : List ℕ}
    (h : readIpv4.run cs = some (octets, [])) : parseIp cs = some (.v4 octets) := by
  rw [parseIp, parseWith_eq_some, readIp, run_orElse, StateT.run_map, h]
  rfl

theorem parseIp_of_readIpv6 {cs : List Char} {groups : List ℕ}
    (h : readIpv6.run cs = some (groups, [])) : parseIp cs = some (.v6 groups) := by
  rw [parseIp, parseWith_eq_some, readIp, run_orElse, StateT.run_map, StateT.run_map,
    readIpv4_eq_none h, h]
  rfl

/-- The characters of an IP address are hexadecimal digits, dots and colons. -/
theorem not_mem_of_parseIp {c : Char} {cs : List Char} {ip : IpAddr} (hhex : hexValue c = none)
    (hdot : '.' ≠ c) (hcolon : ':' ≠ c) (h : parseIp cs = some ip) : c ∉ cs := by
  have hdigit : ∀ radix, toDigit radix c = none := fun radix ↦ by rw [toDigit, hhex]; rfl
  exact (endsAt_readIp (hdigit 16) (hdigit 10) hdot hcolon).not_mem (parseWith_eq_some.1 h)

/-- No address names a zone where only an IP address is read. -/
theorem percent_not_mem {cs : List Char} {ip : IpAddr} (h : parseIp cs = some ip) : '%' ∉ cs :=
  not_mem_of_parseIp (by decide) (by decide) (by decide) h

/-- An IP address has no white space to lose. -/
theorem trim_of_parseIp {cs : List Char} {ip : IpAddr} (h : parseIp cs = some ip) :
    trim cs = cs := by
  refine trim_eq_self fun c hc ↦ ?_
  by_contra hspace
  rw [Bool.not_eq_false] at hspace
  have hhex : hexValue c = none := by
    simp only [isWhitespace, Bool.or_eq_true, Bool.and_eq_true, decide_eq_true_eq,
      beq_iff_eq] at hspace
    simp only [hexValue]
    split_ifs <;> first | rfl | omega
  refine not_mem_of_parseIp hhex ?_ ?_ h hc
  · rintro rfl
    exact absurd hspace (by decide)
  · rintro rfl
    exact absurd hspace (by decide)

/-- A name with a letter past the sixth is not an IP address. -/
theorem map_toLower_ne_of_parseIp {cs : List Char} (name : List Char) {ip : IpAddr} {c : Char}
    (hc : c ∈ name) (hhex : ∀ n < 16, hexDigit n ≠ c) (hdot : c ≠ '.') (hcolon : c ≠ ':')
    (h : parseIp cs = some ip) : cs.map Char.toLower ≠ name := by
  rintro rfl
  obtain ⟨d, hd, rfl⟩ := List.mem_map.1 hc
  refine not_mem_of_parseIp (c := d) ?_ ?_ ?_ h hd
  · rw [Option.eq_none_iff_forall_ne_some]
    intro n hn
    obtain ⟨hlt, hlower⟩ := hexValue_eq_some_iff.1 hn
    exact hhex n hlt hlower.symm
  · rintro rfl
    exact hdot (by decide)
  · rintro rfl
    exact hcolon (by decide)

/-- Between brackets stands an IPv6 address, or one that names its zone. -/
theorem parseIp_or_percent_mem {cs : List Char} {groups : List ℕ} {scope : Option ℕ}
    (h : readScopedIpv6.run cs = some ((groups, scope), [])) :
    parseIp cs = some (.v6 groups) ∨ '%' ∈ cs := by
  rw [readScopedIpv6, StateT.run_bind, Option.bind_eq_bind, Option.bind_eq_some_iff] at h
  obtain ⟨⟨groups', mid⟩, hgroups, hscope⟩ := h
  rw [StateT.run_bind, Option.bind_eq_bind, Option.bind_eq_some_iff] at hscope
  obtain ⟨⟨scope', rest⟩, hrest, hpure⟩ := hscope
  obtain ⟨hvalue, rfl⟩ := Prod.mk.inj (Option.some.inj hpure)
  obtain ⟨rfl, rfl⟩ := Prod.mk.inj hvalue
  rcases mid with - | ⟨d, mid⟩
  · exact Or.inl (parseIp_of_readIpv6 hgroups)
  · refine Or.inr (((endsAt_readIpv6 (c := ' ') (by decide) (by decide) (by decide)
      (by decide)).suffix hgroups).subset ?_)
    rw [run_orElse, StateT.run_map] at hrest
    rcases hid : readScopeId.run (d :: mid) with - | q
    · rw [hid] at hrest
      cases hrest
    · rw [readScopeId, StateT.run_bind, Option.bind_eq_bind, Option.bind_eq_some_iff] at hid
      obtain ⟨p, hpercent, -⟩ := hid
      exact (run_givenChar.1 hpercent).1 ▸ List.mem_cons_self

/-- A decimal digit is no colon. -/
theorem colon_not_mem {digits : List Char} (h : ∀ c ∈ digits, (toDigit 10 c).isSome) :
    ':' ∉ digits :=
  fun hmem ↦ absurd (h ':' hmem) (by decide)

theorem host_of_readSocketV4 {host port : List Char} {a : SocketAddr}
    (h : readSocketV4.run (host ++ ':' :: port) = some (a, [])) :
    parseIp host = some a.ip ∧ ':' ∉ host := by
  rw [readSocketV4, StateT.run_bind, Option.bind_eq_bind, Option.bind_eq_some_iff] at h
  obtain ⟨⟨octets, rest⟩, hv4, h⟩ := h
  rw [StateT.run_bind, Option.bind_eq_bind, Option.bind_eq_some_iff] at h
  obtain ⟨⟨n, left⟩, hport, hpure⟩ := h
  obtain ⟨rfl, rfl⟩ := Prod.mk.inj (Option.some.inj hpure)
  obtain ⟨digits, rfl, hdigits⟩ := readPort_eq_some hport
  -- The address ends at the first colon, and what follows it is digits to the end.
  obtain ⟨x, t, hx, hsplit, hlast⟩ : ∃ x t, ':' ∉ x ∧ host ++ ':' :: port = x ++ ':' :: t ∧
      (x = host ∨ ':' ∈ t) := by
    by_cases hcolon : ':' ∈ host
    · obtain ⟨x, t, rfl, hx⟩ := List.eq_append_cons_of_mem hcolon
      exact ⟨x, t ++ ':' :: port, hx, by simp, Or.inr (by simp)⟩
    · exact ⟨host, port, hcolon, rfl, Or.inl rfl⟩
  have hends : EndsAt ':' readIpv4 := endsAt_readIpv4 (by decide) (by decide)
  rw [hsplit, hends.before t hx, Option.map_eq_some_iff] at hv4
  obtain ⟨⟨octets', rest⟩, hread, hpair⟩ := hv4
  obtain ⟨rfl, hrest⟩ := Prod.mk.inj hpair
  obtain ⟨hnil, rfl⟩ := cut_inj (hends.not_mem_rest hx hread) List.not_mem_nil hrest
  obtain rfl := hlast.resolve_right (colon_not_mem hdigits)
  exact ⟨parseIp_of_readIpv4 (hnil ▸ hread), hx⟩

theorem host_of_readSocketV6 {host port : List Char} {a : SocketAddr} (hport : ':' ∉ port)
    (h : readSocketV6.run (host ++ ':' :: port) = some (a, [])) :
    ∃ inner, host = '[' :: inner ++ [']'] ∧ ']' ∉ inner ∧
      (parseIp inner = some a.ip ∨ '%' ∈ inner) := by
  rcases host with - | ⟨d, host⟩
  · cases h
  rw [readSocketV6, StateT.run_bind, Option.bind_eq_bind, Option.bind_eq_some_iff] at h
  obtain ⟨p, hopen, h⟩ := h
  obtain ⟨rfl, rfl⟩ := run_givenChar.1 hopen
  rw [StateT.run_bind, Option.bind_eq_bind, Option.bind_eq_some_iff] at h
  obtain ⟨⟨⟨groups, scope⟩, rest⟩, hscoped, h⟩ := h
  rw [StateT.run_bind, Option.bind_eq_bind, Option.bind_eq_some_iff] at h
  obtain ⟨⟨⟨⟩, afterClose⟩, hclose, h⟩ := h
  rw [StateT.run_bind, Option.bind_eq_bind, Option.bind_eq_some_iff] at h
  obtain ⟨⟨n, left⟩, hnumber, hpure⟩ := h
  obtain ⟨rfl, rfl⟩ := Prod.mk.inj (Option.some.inj hpure)
  obtain ⟨digits, rfl, hdigits⟩ := readPort_eq_some hnumber
  rcases rest with - | ⟨e, rest⟩
  · cases hclose
  obtain ⟨rfl, hafter⟩ := run_givenChar.1 hclose
  obtain rfl := (Prod.mk.inj hafter).2
  -- The address ends at the first closing bracket.
  have hends : EndsAt ']' readScopedIpv6 :=
    endsAt_readScopedIpv6 (by decide) (by decide) (by decide) (by decide) (by decide)
  obtain ⟨inner, t, hsplit, hinner⟩ :=
    List.eq_append_cons_of_mem ((hends.suffix hscoped).subset (List.mem_cons_self (a := ']')))
  change host ++ ':' :: port = _ at hsplit
  change readScopedIpv6.run (host ++ ':' :: port) = _ at hscoped
  rw [hsplit, hends.before t hinner, Option.map_eq_some_iff] at hscoped
  obtain ⟨⟨value, rest⟩, hread, hpair⟩ := hscoped
  obtain ⟨rfl, hrest⟩ := Prod.mk.inj hpair
  obtain ⟨rfl, rfl⟩ := cut_inj (hends.not_mem_rest hinner hread) List.not_mem_nil hrest
  -- The last colon is the one in front of the port.
  have hlast : host ++ ':' :: port = (inner ++ [']']) ++ ':' :: digits := by simp [hsplit]
  obtain ⟨rfl, -⟩ := cut_last_inj hport (colon_not_mem hdigits) hlast
  exact ⟨inner, rfl, hinner, parseIp_or_percent_mem hread⟩

/-- **A socket address is a host and a port.** Where a text ends with a colon and a port, it reads
as a socket address only if what stands before is an IPv4 address, or an IPv6 address in brackets,
which may name a zone there. -/
theorem host_of_parseSocketAddr {host port : List Char} {a : SocketAddr} (hport : ':' ∉ port)
    (h : parseSocketAddr (host ++ ':' :: port) = some a) :
    (parseIp host = some a.ip ∧ ':' ∉ host) ∨
      ∃ inner, host = '[' :: inner ++ [']'] ∧ ']' ∉ inner ∧
        (parseIp inner = some a.ip ∨ '%' ∈ inner) := by
  have hrun := parseWith_eq_some.1 h
  rw [run_orElse] at hrun
  rcases hv4 : readSocketV4.run (host ++ ':' :: port) with - | p
  · rw [hv4] at hrun
    exact Or.inr (host_of_readSocketV6 hport hrun)
  · rw [hv4] at hrun
    exact Or.inl (host_of_readSocketV4 (hv4.trans hrun))

end IpText
