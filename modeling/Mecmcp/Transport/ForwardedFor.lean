import Mathlib.Data.Nat.Notation

/-!
# ForwardedFor — the address a request is rate-limited by

`resolve_rate_limit_ip` of `rate_limit.rs`: the canonical peer address, or, where the peer is a
trusted proxy, the rightmost untrusted address of the `X-Forwarded-For` lines.  A line is a byte
string; `HeaderValue::to_str` accepts it only if all of it is visible ASCII.  What a network contains
and which bytes are visible is left to the crates (`NetCrates`).

The address parser follows the standard library's: octets without leading zeros, groups of up to
four hexadecimal digits, one `::`, and an embedded IPv4 address at the end.
-/

namespace Mecmcp.Transport

open List

variable {lines : List (List UInt8)}

/-! ### Addresses and networks -/

inductive IpAddr where
  | v4 (bits : BitVec 32)
  | v6 (bits : BitVec 128)
  deriving DecidableEq

/-- An IPv4 address mapped into IPv6 is the IPv4 address. -/
def IpAddr.toCanonical : IpAddr → IpAddr
  | .v4 bits => .v4 bits
  | .v6 bits => if bits >>> 32 = 0xffff#128 then .v4 (bits.setWidth 32) else .v6 bits

/-- What `ipnet` and `http` answer: whether an address is in a network, and whether
`HeaderValue::to_str` accepts a byte. -/
structure NetCrates (IpNet : Type) where
  contains : IpNet → IpAddr → Bool
  isVisibleAscii : UInt8 → Bool

/-! ### Reading an address -/

/-- A reader: a value and the rest of the text. -/
def Reader (α : Type) : Type := List UInt8 → Option (α × List UInt8)

def Reader.bind {α β : Type} (r : Reader α) (f : α → Reader β) : Reader β :=
  fun text => (r text).bind fun (value, rest) => f value rest

instance : Monad Reader where
  pure value := fun text => some (value, text)
  bind := Reader.bind

def readGivenChar (byte : UInt8) : Reader Unit
  | [] => none
  | b :: rest => if b = byte then some ((), rest) else none

def toDigit (radix : ℕ) (byte : UInt8) : Option ℕ :=
  let b := byte.toNat
  let digit :=
    if 48 ≤ b ∧ b ≤ 57 then some (b - 48)
    else if 97 ≤ b ∧ b ≤ 122 then some (b - 97 + 10)
    else if 65 ≤ b ∧ b ≤ 90 then some (b - 65 + 10)
    else none
  digit.filter (· < radix)

/-- The digits at the start of the text. -/
def readDigits (radix : ℕ) : List UInt8 → List ℕ × List UInt8
  | [] => ([], [])
  | b :: rest =>
    match toDigit radix b with
    | some digit => (digit :: (readDigits radix rest).1, (readDigits radix rest).2)
    | none => ([], b :: rest)

/-- A number of at least one and at most `maxDigits` digits, below `bound`. -/
def readNumber (radix maxDigits bound : ℕ) (allowZeroPrefix : Bool) : Reader ℕ := fun text =>
  let (digits, rest) := readDigits radix text
  let value := digits.foldl (fun value digit => value * radix + digit) 0
  if digits = [] ∨ maxDigits < digits.length then none
  else if !allowZeroPrefix ∧ digits.head? = some 0 ∧ 1 < digits.length then none
  else if value < bound then some (value, rest) else none

/-- Every item after the first has a separator before it. -/
def readSeparator {α : Type} (separator : UInt8) (index : ℕ) (inner : Reader α) : Reader α :=
  if index = 0 then inner else do
    readGivenChar separator
    inner

def readIpv4Addr : Reader (BitVec 32) := do
  let a ← readSeparator 46 0 (readNumber 10 3 256 false)
  let b ← readSeparator 46 1 (readNumber 10 3 256 false)
  let c ← readSeparator 46 2 (readNumber 10 3 256 false)
  let d ← readSeparator 46 3 (readNumber 10 3 256 false)
  return BitVec.ofNat 32 (((a * 256 + b) * 256 + c) * 256 + d)

/-- The groups from `index` on, at most `room` of them; an embedded IPv4 address takes the place of
the last two.  The flag says that one was read. -/
def readGroups (index : ℕ) : (room : ℕ) → List UInt8 → List ℕ × Bool × List UInt8
  | 0, text => ([], false, text)
  | room + 1, text =>
    match if 0 < room then readSeparator 58 index readIpv4Addr text else none with
    | some (addr, rest) => ([(addr >>> 16).toNat, addr.toNat % 65536], true, rest)
    | none =>
      match readSeparator 58 index (readNumber 16 4 65536 true) text with
      | some (group, rest) =>
        let (groups, flag, rest) := readGroups (index + 1) room rest
        (group :: groups, flag, rest)
      | none => ([], false, text)

/-- Eight groups, or groups around one `::` that stands for at least one group of zeros. -/
def readIpv6Addr : Reader (BitVec 128) := fun text =>
  let (head, headIpv4, rest) := readGroups 0 8 text
  let address (groups : List ℕ) : BitVec 128 :=
    BitVec.ofNat 128 (groups.foldl (fun value group => value * 65536 + group) 0)
  if head.length = 8 then some (address head, rest)
  else if headIpv4 then none
  else do
    let ((), rest) ← readGivenChar 58 rest
    let ((), rest) ← readGivenChar 58 rest
    let (tail, _, rest) := readGroups 0 (8 - (head.length + 1)) rest
    return (address (head ++ List.replicate (8 - head.length - tail.length) 0 ++ tail), rest)

/-- `str::parse::<IpAddr>`: the whole text is an address. -/
def parseIpAddr (text : List UInt8) : Option IpAddr :=
  let parsed := match readIpv4Addr text with
    | some (addr, rest) => some (IpAddr.v4 addr, rest)
    | none => (readIpv6Addr text).map fun (addr, rest) => (IpAddr.v6 addr, rest)
  parsed.bind fun (addr, rest) => if rest = [] then some addr else none

-- A plain address, a mapped one, a compressed one; an octet has no leading zero.
example : parseIpAddr "203.0.113.7".toUTF8.data.toList = some (.v4 0xcb007107#32) ∧
    (parseIpAddr "::ffff:10.0.0.1".toUTF8.data.toList).map IpAddr.toCanonical =
      some (.v4 0x0a000001#32) ∧
    parseIpAddr "2001:db8::7".toUTF8.data.toList =
      some (.v6 0x20010db8000000000000000000000007#128) ∧
    parseIpAddr "010.0.0.1".toUTF8.data.toList = none := by
  decide

/-! ### Header lines -/

/-- `str::trim` on an ASCII string. -/
def trim (text : List UInt8) : List UInt8 :=
  let isSpace := fun b : UInt8 => b == 32 || (9 ≤ b.toNat && b.toNat ≤ 13)
  ((text.dropWhile isSpace).reverse.dropWhile isSpace).reverse

def splitCommas (text : List UInt8) : List (List UInt8) := text.splitOn 44

variable {IpNet : Type} (C : NetCrates IpNet)

/-- The entries of all lines, or `none` where a line is not visible ASCII. -/
def collectEntries : (lines : List (List UInt8)) → Option (List (List UInt8))
  | [] => some []
  | line :: lines =>
    if line.all C.isVisibleAscii then (collectEntries lines).map (splitCommas line ++ ·) else none

def isTrusted (trustedProxies : List IpNet) (addr : IpAddr) : Bool :=
  trustedProxies.any fun network => C.contains network addr

def parseEntry (entry : List UInt8) : Option IpAddr :=
  (parseIpAddr (trim entry)).map IpAddr.toCanonical

def walkEntries (peer : IpAddr) (trustedProxies : List IpNet) : List (List UInt8) → IpAddr
  | [] => peer
  | entry :: entries =>
    match parseEntry entry with
    | none => peer
    | some addr =>
      if isTrusted C trustedProxies addr then walkEntries peer trustedProxies entries else addr

/-- The address used as the rate-limit key; `lines` are the `X-Forwarded-For` header lines. -/
def resolveRateLimitIp (peer : IpAddr) (lines : List (List UInt8)) (trustedProxies : List IpNet) :
    IpAddr :=
  let peer := peer.toCanonical
  if !isTrusted C trustedProxies peer then peer
  else match collectEntries C lines with
    | none => peer
    | some entries => walkEntries C peer trustedProxies entries.reverse

/-! ### The entries of several lines -/

def forwardedEntries (lines : List (List UInt8)) : List (List UInt8) :=
  splitCommas ([44].intercalate lines)

theorem splitCommas_append (front back : List UInt8) :
    splitCommas (front ++ 44 :: back) = splitCommas front ++ splitCommas back :=
  splitOnP_append_cons front back (by decide)

theorem forwardedEntries_eq_flatMap (hne : lines ≠ []) :
    forwardedEntries lines = lines.flatMap splitCommas := by
  induction lines with
  | nil => exact absurd rfl hne
  | cons line lines ih =>
    by_cases hlast : lines = []
    · subst hlast
      simp [forwardedEntries]
    · rw [flatMap_cons, ← ih hlast]
      unfold forwardedEntries
      rw [intercalate_cons_of_ne_nil hlast, append_assoc, singleton_append,
        splitCommas_append]

variable {C}

theorem collectEntries_of_visible (hvisible : ∀ line ∈ lines, line.all C.isVisibleAscii) :
    collectEntries C lines = some (lines.flatMap splitCommas) := by
  induction lines with
  | nil => rfl
  | cons line lines ih =>
    have hrest := ih fun l hl => hvisible l (mem_cons_of_mem _ hl)
    simp [collectEntries, hvisible line mem_cons_self, hrest]

theorem collectEntries_of_not_visible
    (hbad : ∃ line ∈ lines, line.all C.isVisibleAscii = false) : collectEntries C lines = none := by
  induction lines with
  | nil => simp at hbad
  | cons line lines ih =>
    by_cases hline : line.all C.isVisibleAscii
    · have hrest : ∃ l ∈ lines, l.all C.isVisibleAscii = false := by
        obtain ⟨l, hl, hl'⟩ := hbad
        rcases mem_cons.mp hl with rfl | hl
        · rw [hline] at hl'
          exact absurd hl' (by decide)
        · exact ⟨l, hl, hl'⟩
      rw [collectEntries, if_pos hline, ih hrest, Option.map_none]
    · rw [collectEntries, if_neg hline]

/-! ### The walk -/

section Walk

variable {peer : IpAddr} {trustedProxies : List IpNet}
variable {addr : IpAddr}

theorem walkEntries_append_trusted {front : List (List UInt8)} (back : List (List UInt8))
    (htrusted : ∀ entry ∈ front, ∃ addr, parseEntry entry = some addr ∧
      isTrusted C trustedProxies addr = true) :
    walkEntries C peer trustedProxies (front ++ back) = walkEntries C peer trustedProxies back := by
  induction front with
  | nil => rfl
  | cons entry front ih =>
    obtain ⟨addr, hparse, haddr⟩ := htrusted entry mem_cons_self
    have hrest := ih fun e he => htrusted e (mem_cons_of_mem _ he)
    rw [cons_append, walkEntries, hparse]
    simp only [haddr, if_true, hrest]

theorem walkEntries_untrusted {entry : List UInt8} (entries : List (List UInt8))
    (hparse : parseEntry entry = some addr) (haddr : isTrusted C trustedProxies addr = false) :
    walkEntries C peer trustedProxies (entry :: entries) = addr := by
  rw [walkEntries, hparse]
  simp [haddr]

theorem resolveRateLimitIp_of_untrusted (lines : List (List UInt8))
    (hpeer : isTrusted C trustedProxies peer.toCanonical = false) :
    resolveRateLimitIp C peer lines trustedProxies = peer.toCanonical := by
  simp [resolveRateLimitIp, hpeer]

theorem resolveRateLimitIp_of_not_visible
    (hbad : ∃ line ∈ lines, line.all C.isVisibleAscii = false) :
    resolveRateLimitIp C peer lines trustedProxies = peer.toCanonical := by
  simp [resolveRateLimitIp, collectEntries_of_not_visible hbad]

theorem resolveRateLimitIp_of_entries {before trusted : List (List UInt8)} {client : List UInt8}
    (hpeer : isTrusted C trustedProxies peer.toCanonical = true)
    (hvisible : ∀ line ∈ lines, line.all C.isVisibleAscii)
    (hentries : forwardedEntries lines = before ++ client :: trusted)
    (hparse : parseEntry client = some addr) (haddr : isTrusted C trustedProxies addr = false)
    (htrusted : ∀ entry ∈ trusted, ∃ a, parseEntry entry = some a ∧
      isTrusted C trustedProxies a = true) :
    resolveRateLimitIp C peer lines trustedProxies = addr := by
  have hne : lines ≠ [] := by
    -- without a line the only entry is empty, and that is no address
    rintro rfl
    have hempty : forwardedEntries [] = [[]] := by decide
    rw [hempty] at hentries
    have hmem : client ∈ [([] : List UInt8)] := hentries ▸ by simp
    rw [mem_singleton.mp hmem] at hparse
    exact absurd hparse (by simp [show parseEntry [] = none by decide])
  have hwalk : walkEntries C peer.toCanonical trustedProxies
      (forwardedEntries lines).reverse = addr := by
    rw [hentries, reverse_append, reverse_cons, append_assoc,
      walkEntries_append_trusted _ fun e he => htrusted e (mem_reverse.mp he)]
    exact walkEntries_untrusted _ hparse haddr
  unfold resolveRateLimitIp
  simp only [hpeer, Bool.not_true, Bool.false_eq_true, if_false]
  rw [collectEntries_of_visible hvisible, ← forwardedEntries_eq_flatMap hne]
  exact hwalk

end Walk

/-! ### The client does not choose its bucket -/

/-- An untrusted peer's header is not consulted.  Behind a trusted proxy, two requests that agree
from the rightmost untrusted entry on get that entry's address, provided their lines are visible
ASCII; a request with a line that is not falls back to the proxy's own address. -/
theorem rate_limit_ip_not_chosen_by_client (C : NetCrates IpNet) (trustedProxies : List IpNet)
    (peer : IpAddr) :
    (isTrusted C trustedProxies peer.toCanonical = false → ∀ lines lines' : List (List UInt8),
      resolveRateLimitIp C peer lines trustedProxies =
        resolveRateLimitIp C peer lines' trustedProxies) ∧
    (isTrusted C trustedProxies peer.toCanonical = true →
      ∀ (lines lines' before before' trusted : List (List UInt8)) (client : List UInt8)
        (addr : IpAddr),
      forwardedEntries lines = before ++ client :: trusted →
      forwardedEntries lines' = before' ++ client :: trusted →
      parseEntry client = some addr → isTrusted C trustedProxies addr = false →
      (∀ entry ∈ trusted, ∃ a, parseEntry entry = some a ∧ isTrusted C trustedProxies a = true) →
      ((∀ line ∈ lines ++ lines', line.all C.isVisibleAscii) →
        resolveRateLimitIp C peer lines trustedProxies = addr ∧
        resolveRateLimitIp C peer lines' trustedProxies = addr) ∧
      ((∃ line ∈ lines, line.all C.isVisibleAscii = false) →
        resolveRateLimitIp C peer lines trustedProxies = peer.toCanonical)) := by
  refine ⟨fun hpeer lines lines' => ?_, fun hpeer lines lines' before before' trusted client addr
    hlines hlines' hparse haddr htrusted => ⟨fun hvisible => ⟨?_, ?_⟩, ?_⟩⟩
  · rw [resolveRateLimitIp_of_untrusted lines hpeer, resolveRateLimitIp_of_untrusted lines' hpeer]
  · exact resolveRateLimitIp_of_entries hpeer
      (fun l hl => hvisible l (mem_append_left _ hl)) hlines hparse haddr htrusted
  · exact resolveRateLimitIp_of_entries hpeer
      (fun l hl => hvisible l (mem_append_right _ hl)) hlines' hparse haddr htrusted
  · exact resolveRateLimitIp_of_not_visible

/-- A network: an address and the length of its prefix. -/
inductive Network where
  | v4 (addr : BitVec 32) (len : ℕ)
  | v6 (addr : BitVec 128) (len : ℕ)

/-- The address has the network's prefix; an address of the other family is in no network. -/
def Network.contains : Network → IpAddr → Bool
  | .v4 net len, .v4 addr => addr >>> (32 - len) == net >>> (32 - len)
  | .v6 net len, .v6 addr => addr >>> (128 - len) == net >>> (128 - len)
  | _, _ => false

/-- The two crates as they are documented. -/
def NetCrates.sample : NetCrates Network where
  contains := Network.contains
  isVisibleAscii byte := (32 ≤ byte.toNat && byte.toNat < 127) || byte == 9

/-- `10.0.0.0/8` trusted, `10.0.0.1` the peer; the client sends `1.2.3.4` or nothing. -/
theorem rate_limit_ip_not_chosen_at_ten :
    resolveRateLimitIp NetCrates.sample (.v4 0x0a000001#32)
        ["1.2.3.4, 203.0.113.7".toUTF8.data.toList, "10.0.0.2".toUTF8.data.toList]
        [.v4 0x0a000000#32 8] = .v4 0xcb007107#32 ∧
    resolveRateLimitIp NetCrates.sample (.v4 0x0a000001#32)
        [" 203.0.113.7,10.0.0.2".toUTF8.data.toList]
        [.v4 0x0a000000#32 8] = .v4 0xcb007107#32 :=
  ((rate_limit_ip_not_chosen_by_client .sample [.v4 0x0a000000#32 8] (.v4 0x0a000001#32)).2
    (by decide) _ _ ["1.2.3.4".toUTF8.data.toList] [] ["10.0.0.2".toUTF8.data.toList]
    " 203.0.113.7".toUTF8.data.toList (.v4 0xcb007107#32) (by decide) (by decide)
    (by decide) (by decide) (by
      intro entry hentry
      rw [mem_singleton.mp hentry]
      exact ⟨.v4 0x0a000002#32, by decide, by decide⟩)).1 (by decide)

/-- A byte that is not visible ASCII, sent by the client before the comma, moves the request to the
proxy's bucket. -/
theorem invisible_byte_chooses_bucket :
    ∃ (trustedProxies : List Network) (peer : IpAddr) (before before' client : List UInt8)
      (addr : IpAddr),
      isTrusted NetCrates.sample trustedProxies peer.toCanonical = true ∧
      parseEntry client = some addr ∧ isTrusted NetCrates.sample trustedProxies addr = false ∧
      resolveRateLimitIp NetCrates.sample peer [before ++ 44 :: client] trustedProxies = addr ∧
      resolveRateLimitIp NetCrates.sample peer [before' ++ 44 :: client] trustedProxies =
        peer.toCanonical ∧
      addr ≠ peer.toCanonical :=
  ⟨[.v4 0x0a000000#32 8], .v4 0x0a000001#32, [120], [255], " 203.0.113.7".toUTF8.data.toList,
    .v4 0xcb007107#32, by decide⟩

end Mecmcp.Transport
