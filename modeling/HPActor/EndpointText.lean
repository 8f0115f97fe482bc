/-
Endpoints as text.  The printer puts an IPv6 address between brackets; the
parser looks for the first colon, which for such a text lies inside the
brackets.  The address functions of the C library are taken as they are
documented: reading undoes printing, and the texts have the usual shape.
-/
import HPActor.Message
import Mathlib.Data.List.Basic
import Mathlib.Tactic.IntervalCases

namespace HPActor

open List Nat

/-- `inet_ntoa`, `inet_ntop`, `inet_pton` and `getaddrinfo`. -/
structure InetLibrary where
  ntoa : UInt32 → List Char
  pton4 : List Char → Option UInt32
  ntop6 : List UInt8 → List Char
  pton6 : List Char → Option (List UInt8)
  resolve4 : List Char → Option UInt32
  resolve6 : List Char → Option (List UInt8)
  pton4_ntoa : ∀ sAddr, pton4 (ntoa sAddr) = some sAddr
  pton6_ntop6 : ∀ bytes, bytes.length = 16 → pton6 (ntop6 bytes) = some bytes
  ntoa_dotted : ∀ sAddr, ∀ c ∈ ntoa sAddr, c.isDigit ∨ c = '.'
  ntoa_length : ∀ sAddr, (ntoa sAddr).length ≤ 15
  ntop6_length : ∀ bytes, bytes.length = 16 → (ntop6 bytes).length ≤ 45
  ntop6_colon : ∀ bytes, bytes.length = 16 → ':' ∈ ntop6 bytes
  ntop6_bracket : ∀ bytes, bytes.length = 16 → ']' ∉ ntop6 bytes

/-- A 32-bit value from its octets, the most significant first. -/
def ofOctets (a b c d : Nat) : Nat :=
  a * 16777216 + b * 65536 + c * 256 + d

/-- `__builtin_bswap32`, which turns the stored address into `s_addr` and
back on a little-endian machine. -/
def bswap32 (x : UInt32) : UInt32 :=
  UInt32.ofNat (ofOctets (x.toNat % 256) (x.toNat / 256 % 256)
    (x.toNat / 65536 % 256) (x.toNat / 16777216))

/-- `htons`, and `ntohs`, on a little-endian machine. -/
def htons (x : UInt16) : UInt16 :=
  UInt16.ofNat (x.toNat % 256 * 256 + x.toNat / 256)

theorem ofOctets_octets {a b c d : Nat} (ha : a < 256) (hb : b < 256)
    (hc : c < 256) (hd : d < 256) :
    ofOctets a b c d % 256 = d ∧ ofOctets a b c d / 256 % 256 = c ∧
      ofOctets a b c d / 65536 % 256 = b ∧
      ofOctets a b c d / 16777216 = a ∧ ofOctets a b c d < 2 ^ 32 := by
  simp only [ofOctets]
  omega

theorem octets_ofOctets (n : Nat) :
    ofOctets (n / 16777216) (n / 65536 % 256) (n / 256 % 256) (n % 256) =
      n := by
  have hsecond : n / 65536 = n / 256 / 256 := by omega
  have hthird : n / 16777216 = n / 256 / 256 / 256 := by omega
  rw [hsecond, hthird, ofOctets]
  omega

theorem bswap32_bswap32 (x : UInt32) : bswap32 (bswap32 x) = x := by
  have hx := x.toNat_lt
  obtain ⟨h0, h1, h2, h3, hlt⟩ := ofOctets_octets (mod_lt x.toNat (by omega : 0 < 256))
    (mod_lt (x.toNat / 256) (by omega : 0 < 256))
    (mod_lt (x.toNat / 65536) (by omega : 0 < 256))
    (by omega : x.toNat / 16777216 < 256)
  apply UInt32.toNat_inj.mp
  rw [bswap32, bswap32, UInt32.toNat_ofNat', UInt32.toNat_ofNat', mod_eq_of_lt hlt, h0, h1, h2,
    h3, octets_ofOctets, mod_eq_of_lt hx]

theorem htons_htons (x : UInt16) : htons (htons x) = x := by
  have hx := x.toNat_lt
  have hswap : (htons x).toNat = x.toNat % 256 * 256 + x.toNat / 256 := by
    rw [htons, UInt16.toNat_ofNat', mod_eq_of_lt (by omega)]
  have hmod : (htons x).toNat % 256 = x.toNat / 256 := by omega
  have hdiv : (htons x).toNat / 256 = x.toNat % 256 := by omega
  apply UInt16.toNat_inj.mp
  rw [htons, UInt16.toNat_ofNat', hmod, hdiv]
  omega

namespace EndPoint

def localEndpoint : EndPoint := .ipv4 0x7F000001 0

/-- What the parser returns on failure. -/
def unspecified : EndPoint := .ipv4 0 0

def isIpv4 : EndPoint → Bool
  | .ipv4 .. => true
  | .ipv6 .. => false

/-- The source keeps IPv6 addresses in an array of 16 bytes. -/
def Valid : EndPoint → Prop
  | .ipv4 .. => True
  | .ipv6 addr _ => addr.length = 16

instance (ep : EndPoint) : Decidable ep.Valid := by
  unfold Valid
  split <;> infer_instance

/-- The port in host order, as `%u` prints it. -/
def portText (portNw : UInt16) : List Char :=
  Nat.toDigits 10 (htons portNw).toNat

/-- `snprintf` into a buffer of 64 bytes. -/
def toString (inet : InetLibrary) : EndPoint → List Char
  | .ipv4 addr portNw =>
    (inet.ntoa (bswap32 addr) ++ ':' :: portText portNw).take 63
  | .ipv6 addr portNw =>
    ('[' :: (inet.ntop6 addr ++ ']' :: ':' :: portText portNw)).take 63

/-- The loop over the port's digits. -/
def parsePort : Nat → List Char → Option Nat
  | port, [] => some port
  | port, c :: rest =>
    if c.isDigit then
      if 65535 < port * 10 + (c.toNat - '0'.toNat) then none
      else parsePort (port * 10 + (c.toNat - '0'.toNat)) rest
    else none

/-- A host and a port: numeric IPv4, numeric IPv6, then names. -/
def ofHostPort (inet : InetLibrary) (host : List Char) (port : Nat) : EndPoint :=
  let portNw := htons (UInt16.ofNat port)
  match inet.pton4 host with
  | some sAddr => .ipv4 (bswap32 sAddr) portNw
  | none =>
    match inet.pton6 host with
    | some bytes => .ipv6 bytes portNw
    | none =>
      match inet.resolve4 host with
      | some sAddr => .ipv4 (bswap32 sAddr) portNw
      | none =>
        match inet.resolve6 host with
        | some bytes => .ipv6 bytes portNw
        | none => unspecified

def parseEndpoint (inet : InetLibrary) (nodeId : List Char) : EndPoint :=
  if nodeId = [] then localEndpoint
  else
    match nodeId.dropWhile (fun c => c != ':') with
    | [] => unspecified
    | _ :: portStr =>
      match parsePort 0 portStr with
      | none => unspecified
      | some port =>
        ofHostPort inet (nodeId.takeWhile fun c => c != ':') port

theorem le_ofDigitChars (digits : List Char) (n : Nat) : n ≤ ofDigitChars 10 digits n := by
  rw [ofDigitChars_eq_ofDigitChars_zero]
  have hpow : 1 ≤ 10 ^ digits.length := one_le_pow _ _ (by omega)
  calc n = 1 * n := (one_mul n).symm
    _ ≤ 10 ^ digits.length * n := mul_le_mul_right n hpow
    _ ≤ _ := le_add_right _ _

/-- Digits that make up a port number are read as that number. -/
theorem parsePort_digits {digits : List Char} {n : Nat} (hdigits : ∀ c ∈ digits, c.isDigit)
    (hport : ofDigitChars 10 digits n ≤ 65535) :
    parsePort n digits = some (ofDigitChars 10 digits n) := by
  induction digits generalizing n with
  | nil => rfl
  | cons c rest ih =>
    rw [ofDigitChars_cons, mul_comm] at hport ⊢
    have hle := le_ofDigitChars rest (n * 10 + (c.toNat - '0'.toNat))
    rw [parsePort, if_pos (hdigits c mem_cons_self), if_neg (by omega)]
    exact ih (fun d hd => hdigits d (mem_cons_of_mem _ hd)) hport

theorem parsePort_portText (portNw : UInt16) :
    parsePort 0 (portText portNw) = some (htons portNw).toNat := by
  have hvalue : ofDigitChars 10 (portText portNw) 0 =
      (htons portNw).toNat := ofDigitChars_ten_toDigits
  have hlt := (htons portNw).toNat_lt
  rw [parsePort_digits, hvalue]
  · intro c hc
    exact isDigit_of_mem_toDigits (by omega) (by omega) hc
  · omega

/-- A text with something other than a digit in it is no port. -/
theorem parsePort_none {text : List Char} {c : Char} (hc : c ∈ text)
    (hdigit : c.isDigit = false) (n : Nat) : parsePort n text = none := by
  induction text generalizing n with
  | nil => cases hc
  | cons d rest ih =>
    rw [parsePort]
    split_ifs with hd hbig
    · rfl
    · rcases mem_cons.mp hc with rfl | hrest
      · rw [hd] at hdigit
        cases hdigit
      · exact ih hrest _
    · rfl

theorem portText_length (portNw : UInt16) : (portText portNw).length ≤ 5 := by
  have hlt := (htons portNw).toNat_lt
  exact (length_toDigits_le_iff (by omega) (by omega)).mpr (by omega)

theorem portText_not_mem {c : Char} (hc : c.isDigit = false)
    (portNw : UInt16) : c ∉ portText portNw := by
  intro hmem
  have hdigit := isDigit_of_mem_toDigits (by omega) (by omega) hmem
  rw [hc] at hdigit
  cases hdigit

theorem portText_inj {portNw portNw' : UInt16}
    (htext : portText portNw = portText portNw') : portNw = portNw' := by
  have hvalue := congrArg (fun text => ofDigitChars 10 text 0) htext
  simp only [portText, ofDigitChars_ten_toDigits] at hvalue
  rw [← htons_htons portNw, UInt16.toNat_inj.mp hvalue, htons_htons]

/-- The buffer holds every IPv4 text. -/
theorem toString_ipv4 (inet : InetLibrary) (addr : UInt32) (portNw : UInt16) :
    toString inet (.ipv4 addr portNw) = inet.ntoa (bswap32 addr) ++ ':' :: portText portNw := by
  have haddr := inet.ntoa_length (bswap32 addr)
  have hport := portText_length portNw
  apply take_of_length_le
  rw [length_append, length_cons]
  omega

variable {addr : List UInt8}

/-- The buffer holds every IPv6 text. -/
theorem toString_ipv6 (inet : InetLibrary) (haddr : addr.length = 16) (portNw : UInt16) :
    toString inet (.ipv6 addr portNw) =
      '[' :: (inet.ntop6 addr ++ ']' :: ':' :: portText portNw) := by
  have htext := inet.ntop6_length addr haddr
  have hport := portText_length portNw
  apply take_of_length_le
  simp only [length_cons, length_append]
  omega

theorem ntoa_not_mem (inet : InetLibrary) {c : Char}
    (hdigit : c.isDigit = false) (hdot : c ≠ '.') (sAddr : UInt32) :
    c ∉ inet.ntoa sAddr := by
  intro hmem
  rcases inet.ntoa_dotted sAddr c hmem with h | h
  · rw [hdigit] at h
    cases h
  · exact hdot h

/-- Before the first colon, and from it on. -/
theorem span_colon {front : List Char} (hfront : ':' ∉ front) (back : List Char) :
    (front ++ ':' :: back).takeWhile (fun c => c != ':') = front ∧
      (front ++ ':' :: back).dropWhile (fun c => c != ':') = ':' :: back := by
  induction front with
  | nil => simp
  | cons c rest ih =>
    obtain ⟨hc, hrest⟩ := not_or.mp (mt mem_cons.mpr hfront)
    obtain ⟨htake, hdrop⟩ := ih hrest
    have hne : (c != ':') = true := by simpa using Ne.symm hc
    simp only [cons_append, takeWhile_cons, dropWhile_cons, hne, ↓reduceIte, htake, hdrop, and_self]

variable (inet : InetLibrary)

theorem parseEndpoint_split {host : List Char} (hhost : ':' ∉ host) (portStr : List Char) :
    parseEndpoint inet (host ++ ':' :: portStr) =
      match parsePort 0 portStr with
      | none => unspecified
      | some port => ofHostPort inet host port := by
  obtain ⟨htake, hdrop⟩ := span_colon hhost portStr
  rw [parseEndpoint, if_neg (by simp), hdrop, htake]

/-- IPv4 endpoints come back from their text. -/
theorem parseEndpoint_toString_ipv4 (addr : UInt32) (portNw : UInt16) :
    parseEndpoint inet (toString inet (.ipv4 addr portNw)) = .ipv4 addr portNw := by
  rw [toString_ipv4, parseEndpoint_split inet
    (ntoa_not_mem inet (by decide) (by decide) _), parsePort_portText]
  simp only [ofHostPort, inet.pton4_ntoa, bswap32_bswap32, UInt16.ofNat_toNat, htons_htons]

/-- IPv6 endpoints never do: the first colon is inside the brackets, and what
follows it is no port. -/
theorem parseEndpoint_toString_ipv6 (haddr : addr.length = 16) (portNw : UInt16) :
    parseEndpoint inet (toString inet (.ipv6 addr portNw)) = unspecified := by
  obtain ⟨front, back, htext, hfront⟩ :=
    eq_append_cons_of_mem (inet.ntop6_colon addr haddr)
  have hsplit : toString inet (.ipv6 addr portNw) =
      ('[' :: front) ++ ':' :: (back ++ ']' :: ':' :: portText portNw) := by
    rw [toString_ipv6 inet haddr, htext]
    simp
  have hhost : ':' ∉ '[' :: front := by
    rw [mem_cons, not_or]
    exact ⟨by decide, hfront⟩
  have hport : parsePort 0 (back ++ ']' :: ':' :: portText portNw) = none :=
    parsePort_none (mem_append_right _ mem_cons_self) (by decide) 0
  rw [hsplit, parseEndpoint_split inet hhost, hport]

theorem bracket_mem_ipv6 (haddr : addr.length = 16) (portNw : UInt16) :
    '[' ∈ toString inet (.ipv6 addr portNw) := by
  rw [toString_ipv6 inet haddr]
  exact mem_cons_self

theorem bracket_not_mem_ipv4 (addr : UInt32) (portNw : UInt16) :
    '[' ∉ toString inet (.ipv4 addr portNw) := by
  rw [toString_ipv4, mem_append, mem_cons, not_or, not_or]
  exact ⟨ntoa_not_mem inet (by decide) (by decide) _, by decide,
    portText_not_mem (by decide) portNw⟩

/-- Distinct endpoints have distinct texts. -/
theorem toString_injective {ep ep' : EndPoint} (hep : ep.Valid)
    (hep' : ep'.Valid) (htext : toString inet ep = toString inet ep') :
    ep = ep' := by
  cases ep with
  | ipv4 addr portNw =>
    cases ep' with
    | ipv4 addr' portNw' =>
      have hback := congrArg (parseEndpoint inet) htext
      simpa only [parseEndpoint_toString_ipv4] using hback
    | ipv6 addr' portNw' =>
      have hbracket := bracket_mem_ipv6 inet hep' portNw'
      rw [← htext] at hbracket
      exact absurd hbracket (bracket_not_mem_ipv4 inet addr portNw)
  | ipv6 addr portNw =>
    cases ep' with
    | ipv4 addr' portNw' =>
      have hbracket := bracket_mem_ipv6 inet hep portNw
      rw [htext] at hbracket
      exact absurd hbracket (bracket_not_mem_ipv4 inet addr' portNw')
    | ipv6 addr' portNw' =>
      rw [toString_ipv6 inet hep, toString_ipv6 inet hep', cons_inj_right] at htext
      -- the closing bracket stands once in each text
      have hclose : ']' ∉ ':' :: portText portNw := by
        rw [mem_cons, not_or]
        exact ⟨by decide, portText_not_mem (by decide) portNw⟩
      obtain ⟨haddr, -, hport⟩ := (append_cons_inj_of_notMem
        (inet.ntop6_bracket addr hep) hclose).mp htext
      have hbytes := congrArg inet.pton6 haddr
      rw [inet.pton6_ntop6 addr hep, inet.pton6_ntop6 addr' hep'] at hbytes
      rw [Option.some.inj hbytes, portText_inj (cons_inj_right _ |>.mp hport)]

theorem parseEndpoint_toString_iff {ep : EndPoint} (hep : ep.Valid) :
    parseEndpoint inet (toString inet ep) = ep ↔ ep.isIpv4 = true := by
  cases ep with
  | ipv4 addr portNw => exact iff_of_true (parseEndpoint_toString_ipv4 inet addr portNw) rfl
  | ipv6 addr portNw =>
    rw [parseEndpoint_toString_ipv6 inet hep]
    exact iff_of_false nofun nofun

/-- The IPv4 endpoints are the ones that come back from their text, and no two
endpoints share a text. -/
theorem endpoint_text_round_trip :
    (∀ ep : EndPoint, ep.Valid →
      (parseEndpoint inet (toString inet ep) = ep ↔ ep.isIpv4 = true)) ∧
      ∀ ep ep' : EndPoint, ep.Valid → ep'.Valid →
        toString inet ep = toString inet ep' → ep = ep' := by
  constructor
  · intro ep hep
    exact parseEndpoint_toString_iff inet hep
  · intro ep ep' hep hep' htext
    exact toString_injective inet hep hep' htext

namespace EndpointWitness

variable (sAddr : UInt32)

/-- The octets of `s_addr` as they lie in memory. -/
def octets : List Nat :=
  [sAddr.toNat % 256, sAddr.toNat / 256 % 256, sAddr.toNat / 65536 % 256, sAddr.toNat / 16777216]

def dotted : List Char :=
  ['.'].intercalate ((octets sAddr).map (Nat.toDigits 10))

/-- Only the text that `dotted` prints is read. -/
def readDotted (text : List Char) : Option UInt32 :=
  match (text.splitOn '.').map (fun part => Nat.ofDigitChars 10 part 0) with
  | [a, b, c, d] =>
    if dotted (UInt32.ofNat (ofOctets d c b a)) = text then
      some (UInt32.ofNat (ofOctets d c b a))
    else none
  | _ => none

def hexHigh (b : UInt8) : Char := (b.toNat / 16).digitChar
def hexLow (b : UInt8) : Char := (b.toNat % 16).digitChar

/-- Groups of four hexadecimal digits, without the short form for zeros. -/
def colons : List UInt8 → List Char
  | [] => []
  | [a, b] => [hexHigh a, hexLow a, hexHigh b, hexLow b]
  | a :: b :: rest => hexHigh a :: hexLow a :: hexHigh b :: hexLow b :: ':' :: colons rest
  | [_] => []

def hexValue (c : Char) : Nat :=
  if c.isDigit then c.toNat - 48 else c.toNat - 87

def ofHex (high low : Char) : UInt8 :=
  .ofNat (16 * hexValue high + hexValue low)

def ungroup : List Char → List UInt8
  | a :: b :: c :: d :: _ :: rest => ofHex a b :: ofHex c d :: ungroup rest
  | [a, b, c, d] => [ofHex a b, ofHex c d]
  | _ => []

def readColons (text : List Char) : Option (List UInt8) :=
  if colons (ungroup text) = text then some (ungroup text) else none

theorem dot_not_mem :
    ∀ part ∈ (octets sAddr).map (toDigits 10), '.' ∉ part := by
  intro part hpart hdot
  obtain ⟨n, -, rfl⟩ := mem_map.mp hpart
  have hdigit := isDigit_of_mem_toDigits (by omega) (by omega) hdot
  cases hdigit

theorem readDotted_dotted : readDotted (dotted sAddr) = some sAddr := by
  have hparts : (dotted sAddr).splitOn '.' = (octets sAddr).map (toDigits 10) :=
    splitOn_intercalate '.' (dot_not_mem sAddr) (by simp [octets])
  simp only [readDotted, hparts, octets, map_cons, map_nil, ofDigitChars_ten_toDigits,
    octets_ofOctets, UInt32.ofNat_toNat, ↓reduceIte]

theorem dotted_chars :
    ∀ c ∈ dotted sAddr, c.isDigit ∨ c = '.' := by
  intro c hc
  have hdigit {n : Nat} (hmem : c ∈ toDigits 10 n) : c.isDigit :=
    isDigit_of_mem_toDigits (by omega) (by omega) hmem
  simp only [dotted, octets, map_cons, map_nil, List.intercalate, List.intersperse, flatten_cons,
    flatten_nil, append_nil, mem_append, mem_singleton] at hc
  rcases hc with hmem | hdot | hmem | hdot | hmem | hdot | hmem
  all_goals first | exact .inr hdot | exact .inl (hdigit hmem)

theorem octet_length {n : Nat} (hn : n < 256) : (toDigits 10 n).length ≤ 3 :=
  (length_toDigits_le_iff (by omega) (by omega)).mpr (by omega)

theorem dotted_length : (dotted sAddr).length ≤ 15 := by
  have hlt := sAddr.toNat_lt
  have h0 := octet_length (mod_lt sAddr.toNat (by omega : 0 < 256))
  have h1 := octet_length (mod_lt (sAddr.toNat / 256) (by omega : 0 < 256))
  have h2 :=
    octet_length (mod_lt (sAddr.toNat / 65536) (by omega : 0 < 256))
  have h3 := octet_length (by omega : sAddr.toNat / 16777216 < 256)
  simp only [dotted, octets, map_cons, map_nil, List.intercalate, List.intersperse, flatten_cons,
    flatten_nil, length_append, length_singleton, append_nil]
  omega

theorem hexValue_digitChar {n : Nat} (hn : n < 16) : hexValue n.digitChar = n := by
  interval_cases n <;> rfl

theorem ofHex_hex (b : UInt8) : ofHex (hexHigh b) (hexLow b) = b := by
  have hb := b.toNat_lt
  rw [ofHex, hexHigh, hexLow, hexValue_digitChar (by omega), hexValue_digitChar (by omega),
    Nat.div_add_mod, UInt8.ofNat_toNat]

theorem hex_ne_bracket (b : UInt8) : hexHigh b ≠ ']' ∧ hexLow b ≠ ']' :=
  ⟨Nat.digitChar_ne ']' (by decide), Nat.digitChar_ne ']' (by decide)⟩

variable {bytes : List UInt8}

theorem sixteen (hbytes : bytes.length = 16) :
    ∃ a b c d e f g h i j k l m n o p, bytes = [a, b, c, d, e, f, g, h, i, j, k, l, m, n, o, p] :=
  match bytes, hbytes with
  | [a, b, c, d, e, f, g, h, i, j, k, l, m, n, o, p], _ =>
    ⟨a, b, c, d, e, f, g, h, i, j, k, l, m, n, o, p, rfl⟩

/-- What is asked of the text of an address. -/
theorem colons_facts (hbytes : bytes.length = 16) :
    readColons (colons bytes) = some bytes ∧ (colons bytes).length ≤ 45 ∧ ':' ∈ colons bytes ∧
      ']' ∉ colons bytes := by
  obtain ⟨a, b, c, d, e, f, g, h, i, j, k, l, m, n, o, p, rfl⟩ := sixteen hbytes
  simp [readColons, colons, ungroup, ofHex_hex, (hex_ne_bracket _).1.symm,
    (hex_ne_bracket _).2.symm]

/-- A library of plain texts, without names. -/
def plain : InetLibrary where
  ntoa := dotted
  pton4 := readDotted
  ntop6 := colons
  pton6 := readColons
  resolve4 _ := none
  resolve6 _ := none
  pton4_ntoa := readDotted_dotted
  pton6_ntop6 _ hbytes := (colons_facts hbytes).1
  ntoa_dotted := dotted_chars
  ntoa_length := dotted_length
  ntop6_length _ hbytes := (colons_facts hbytes).2.1
  ntop6_colon _ hbytes := (colons_facts hbytes).2.2.1
  ntop6_bracket _ hbytes := (colons_facts hbytes).2.2.2

/-- `127.0.0.1:8080`. -/
def loopback : EndPoint := .ipv4 0x7F000001 (htons 8080)

theorem loopback_comes_back :
    toString plain loopback = "127.0.0.1:8080".toList ∧
      parseEndpoint plain (toString plain loopback) = loopback ∧
      toString plain loopback ≠ toString plain localEndpoint :=
  ⟨by decide +kernel, ((endpoint_text_round_trip plain).1 loopback trivial).mpr rfl,
    fun htext => absurd
      ((endpoint_text_round_trip plain).2 loopback localEndpoint trivial trivial htext) (by decide)⟩

/-- The loopback address of IPv6, with port 80. -/
def loopback6 : EndPoint :=
  .ipv6 [0, 0, 0, 0, 0, 0, 0, 0, 0, 0, 0, 0, 0, 0, 0, 1] (htons 80)

theorem loopback6_lost :
    toString plain loopback6 = "[0000:0000:0000:0000:0000:0000:0000:0001]:80".toList ∧
      parseEndpoint plain (toString plain loopback6) = unspecified ∧
      parseEndpoint plain (toString plain loopback6) ≠ loopback6 := by
  have hback : parseEndpoint plain (toString plain loopback6) = unspecified :=
    parseEndpoint_toString_ipv6 plain rfl _
  exact ⟨by decide +kernel, hback, by rw [hback]; decide⟩

end EndpointWitness

end EndPoint

end HPActor
