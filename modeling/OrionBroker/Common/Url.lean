import OrionBroker.Common.DurationGrammar
import OrionBroker.Lib.Pieces

/-!
# URLs (string.cpp:38-311)

| here | there |
| --- | --- |
| `checkGroupIPv6`        | the same (string.cpp:53); a group ends in its `:` |
| `isIPv6Loop`, `isIPv6`  | `isIPv6` (:94); `partip` is the text since the last `:` |
| `getIPv6Loop`, `getIPv6Port` | `getIPv6Port` (:127); `res` is the text up to the last `:`, with it |
| `parseHost`             | the second half of `parseUrl` (:262-308) |
| `parseUrl`              | the same (:223); `none` where a token is read that `stringSplit` did not produce |
| `atoi`                  | `atoi` of any text |

The parts of a url are those of its C string. `parseUrl_faithful_iff` says for which urls the four references hold
what they are named after.
-/

namespace OrionBroker.Url

def DEFAULT_HTTP_PORT : Nat := 80
def DEFAULT_HTTPS_PORT : Nat := 443

def isxdigit (c : Char) : Bool := c.isDigit || ('a' ≤ c && c ≤ 'f') || ('A' ≤ c && c ≤ 'F')

def isspace (c : Char) : Bool := c == ' ' || (9 ≤ c.toNat && c.toNat ≤ 13)

/-- White space and a sign may stand before the digits. -/
def atoi (s : List Char) : Int :=
  match s.dropWhile isspace with
  | '-' :: cs => toInt32 (max (-(digitsValue (cs.takeWhile Char.isDigit) : Int)) (-2 ^ 63))
  | '+' :: cs => OrionBroker.atoi cs
  | cs => OrionBroker.atoi cs

def checkGroupIPv6 (s : List Char) : Bool :=
  if s = [] then false
  else if s = [':'] then true
  else if s.length > 5 then false
  else s.dropLast.all isxdigit

def isIPv6Loop : (partip : List Char) → List Char → (cont : Nat) → Bool
  | _, [], cont => 1 < cont && cont < 8
  | partip, c :: cs, cont =>
    if c = ':' then
      if checkGroupIPv6 (partip ++ [c]) = false then false
      else isIPv6Loop [] cs (cont + 1)
    else isIPv6Loop (partip ++ [c]) cs cont

def isIPv6 (s : List Char) : Bool := isIPv6Loop [] s 0

def getIPv6Loop : (res partip : List Char) → List Char → List Char × List Char
  | res, partip, [] => (res, partip)
  | res, partip, c :: cs =>
    if c = ':' then getIPv6Loop (res ++ partip ++ [c]) [] cs
    else getIPv6Loop res (partip ++ [c]) cs

/-- The result, `outIp` and `outPort`; a text without `:` leaves the two alone, as they came in empty. -/
def getIPv6Port (s : List Char) : Bool × List Char × List Char :=
  let (res, staux) := getIPv6Loop [] [] s
  if res = [] then (false, [], [])
  else (isIPv6 res, res.dropLast, staux)

/-- The references of `parseUrl`. -/
structure UrlParts where
  host : List Char := []
  port : Int := 0
  path : List Char := []
  protocol : List Char := []
deriving DecidableEq, Repr

def parseHost (authority : List Char) (out : UrlParts) : Option (Bool × UrlParts) :=
  match getIPv6Port authority with
  | (true, auxIp, auxPort) => some (true, { out with host := auxIp, port := atoi auxPort })
  | (false, _, _) =>
    let hostTokens := stringSplit authority ':'
    if hostTokens.length > 2 then some (false, out)
    else do
      let host ← hostTokens[0]?
      let out := { out with host := host }
      if hostTokens.length = 2 then
        let port ← hostTokens[1]?
        some (true, { out with port := atoi port })
      else if out.protocol = "https:".toList then some (true, { out with port := DEFAULT_HTTPS_PORT })
      else some (true, { out with port := DEFAULT_HTTP_PORT })

def parseUrl (url : String) (out : UrlParts) : Option (Bool × UrlParts) :=
  if url = "" then some (false, out)
  else do
    let urlTokens := stringSplit (cStr url) '/'
    let components := urlTokens.length
    let protocol ← urlTokens[0]?
    let out := { out with protocol := protocol }
    if components < 3 then some (false, out)
    else
      let authority ← urlTokens[2]?
      if components = 3 ∧ authority.length = 0 then some (false, out)
      else
        let path := (urlTokens.drop 3).flatMap ('/' :: ·)
        parseHost authority { out with path := if path = [] then ['/'] else path }

/-! ## The parts of a url -/

/-- The url without the slashes it begins with. -/
def text (url : String) : List Char := (cStr url).dropWhile (· == '/')

def afterSlash (s : List Char) : List Char := (s.dropWhile (· != '/')).tail

/-- What stands behind the second slash. -/
def behind (url : String) : List Char := afterSlash (afterSlash (text url))

def protocolOf (url : String) : List Char := (text url).takeWhile (· != '/')

def authorityOf (url : String) : List Char := (behind url).takeWhile (· != '/')

/-- From the third slash on. -/
def restOf (url : String) : List Char := (behind url).dropWhile (· != '/')

def pathOf (url : String) : List Char := if restOf url = [] then ['/'] else restOf url

def defaultPort (protocol : List Char) : Nat :=
  if protocol = "https:".toList then DEFAULT_HTTPS_PORT else DEFAULT_HTTP_PORT

def isNumber (s : List Char) : Bool := s != [] && s.all Char.isDigit

/-- The text behind the last colon. -/
def portText (authority : List Char) : List Char := authority.rtakeWhile (· != ':')

/-- The number behind the last colon, the default when there is none. -/
def portOf (default : Nat) (authority : List Char) : Nat :=
  if ':' ∈ authority ∧ isNumber (portText authority) = true then digitsValue (portText authority) else default

/-- The references hold the parts of the url. -/
structure Faithful (url : String) (out : UrlParts) : Prop where
  host : out.host ≠ []
  protocol : out.protocol = protocolOf url
  port : out.port = portOf (defaultPort (protocolOf url)) (authorityOf url)
  path : out.path = pathOf url

/-! ## Authorities that are read right -/

structure PortFits (default : Nat) (port : List Char) : Prop where
  number : isNumber port = true → digitsValue port < 2 ^ 31
  /-- `atoi` gives the default for it. -/
  other : isNumber port = false → atoi port = default

/-- The authority without the colons it begins with. -/
def bare (authority : List Char) : List Char := authority.dropWhile (· == ':')

/-- What `isIPv6` is asked about: the authority up to its last colon. -/
def address (authority : List Char) : List Char := authority.rdropWhile (· != ':')

/-- More than one colon in `bare` is refused. Without one it is the host, also when colons were dropped in front of
it. -/
structure AuthorityFits (default : Nat) (authority : List Char) : Prop where
  ipv6 : isIPv6 (address authority) = true → PortFits default (portText authority)
  host : isIPv6 (address authority) = false → bare authority ≠ []
  pair : isIPv6 (address authority) = false → (bare authority).count ':' = 1 → PortFits default (portText authority)
  alone : isIPv6 (address authority) = false → (bare authority).count ':' = 0 → portOf default authority = default

/-- The url has something besides slashes, and what stands behind its second slash begins with an authority that is
read right. -/
structure WellFormed (url : String) : Prop where
  text : text url ≠ []
  authority : behind url ≠ [] → AuthorityFits (defaultPort (protocolOf url)) (authorityOf url)

/-! ## Hosts -/

variable {authority : List Char}

theorem all_ne_colon (s : List Char) : s.all (· != ':') = true ↔ ':' ∉ s := by
  rw [List.all_eq_true]
  constructor
  · intro h hmem
    simpa using h ':' hmem
  · intro h c hc
    simpa using ne_of_mem_of_not_mem hc h

theorem getIPv6Loop_eq (s : List Char) : ∀ res partip : List Char, getIPv6Loop res partip s =
    if ':' ∈ s then (res ++ partip ++ address s, portText s) else (res, partip ++ s) := by
  induction s with
  | nil => simp [getIPv6Loop]
  | cons c s ih =>
    intro res partip
    rw [getIPv6Loop]
    by_cases hs : ':' ∈ s
    · have hnot : ¬ s.all (· != ':') = true := by rwa [all_ne_colon, not_not]
      rw [ih, ih, if_pos hs, if_pos hs, if_pos (List.mem_cons_of_mem c hs), address, address, portText, portText,
        Pieces.rdropWhile_cons_of_not_all c hnot, Pieces.rtakeWhile_cons_of_not_all c hnot]
      split_ifs <;> simp
    · have hall := (all_ne_colon s).2 hs
      rw [ih, ih, if_neg hs, if_neg hs, address, portText, Pieces.rdropWhile_cons_of_all c hall,
        Pieces.rtakeWhile_cons_of_all c hall]
      by_cases hc : c = ':'
      · simp [hc, List.rdropWhile]
      · simp [hc, Ne.symm hc, hs]

theorem address_eq_nil_iff : address authority = [] ↔ ':' ∉ authority := by
  rw [address, List.rdropWhile_eq_nil_iff, ← all_ne_colon, List.all_eq_true]

theorem colon_mem (h : isIPv6 (address authority) = true) : ':' ∈ authority := by
  by_contra hmem
  rw [address_eq_nil_iff.2 hmem] at h
  exact absurd h (by decide)

theorem getIPv6Port_eq (h : ':' ∈ authority) : getIPv6Port authority =
    (isIPv6 (address authority), (address authority).dropLast, portText authority) := by
  rw [getIPv6Port, getIPv6Loop_eq, if_pos h]
  simp only [List.nil_append]
  rw [if_neg (fun hnil => address_eq_nil_iff.1 hnil h)]

theorem getIPv6Port_of_not_mem (h : ':' ∉ authority) : getIPv6Port authority = (false, [], []) := by
  rw [getIPv6Port, getIPv6Loop_eq, if_neg h]
  rfl

/-- Every group takes a character. -/
theorem two_le_of_isIPv6Loop (s : List Char) : ∀ (partip : List Char) (cont : Nat),
    isIPv6Loop partip s cont = true → 2 ≤ cont + s.length := by
  induction s with
  | nil =>
    intro partip cont h
    simp only [isIPv6Loop, Bool.and_eq_true, decide_eq_true_eq] at h
    simp
    omega
  | cons c s ih =>
    intro partip cont h
    rw [isIPv6Loop] at h
    rw [List.length_cons]
    split_ifs at h with hc hgroup
    · have := ih _ _ h
      omega
    · have := ih _ _ h
      omega

theorem dropLast_ne_nil {s : List Char} (h : isIPv6 s = true) : s.dropLast ≠ [] := by
  have hlen := two_le_of_isIPv6Loop s [] 0 h
  intro hnil
  have := congrArg List.length hnil
  rw [List.length_dropLast, List.length_nil] at this
  omega

/-! ## Ports -/

theorem atoi_number {s : List Char} (h : isNumber s = true) : atoi s = cut (digitsValue s) := by
  obtain ⟨hne, hdigits⟩ : s ≠ [] ∧ s.all Char.isDigit = true := by simpa [isNumber] using h
  obtain ⟨c, cs, rfl⟩ := List.exists_cons_of_ne_nil hne
  have hc : c.isDigit = true := List.all_eq_true.1 hdigits c List.mem_cons_self
  have hspace : isspace c = false := by
    have hrange := Char.isDigit_iff_toNat.1 hc
    have hzero : '0'.toNat = 48 := rfl
    have hblank : c ≠ ' ' := by rintro rfl; exact absurd hc (by decide)
    simp [isspace, hblank]
    omega
  have hminus : c ≠ '-' := by rintro rfl; exact absurd hc (by decide)
  have hplus : c ≠ '+' := by rintro rfl; exact absurd hc (by decide)
  rw [atoi, List.dropWhile_cons_of_neg (by simp [hspace])]
  split
  · rename_i heq
    exact absurd (List.cons.inj heq).1 hminus
  · rename_i heq
    exact absurd (List.cons.inj heq).1 hplus
  · exact atoi_digits hdigits

theorem cut_eq_iff (n : Nat) : cut n = n ↔ n < 2 ^ 31 := by
  unfold cut toInt32
  constructor
  · intro h
    have hlt := Int.bmod_lt (x := min (n : Int) (2 ^ 63 - 1)) (m := 2 ^ 32) (by decide)
    rw [h] at hlt
    omega
  · intro h
    have hmin : min (n : Int) (2 ^ 63 - 1) = n := by omega
    rw [hmin]
    exact Int.bmod_eq_of_le (by omega) (by omega)

theorem port_iff {default : Nat} (h : ':' ∈ authority) :
    atoi (portText authority) = portOf default authority ↔ PortFits default (portText authority) := by
  unfold portOf
  cases hnumber : isNumber (portText authority) with
  | true =>
    rw [if_pos ⟨h, rfl⟩, atoi_number hnumber, cut_eq_iff]
    constructor
    · intro hlt
      exact ⟨fun _ => hlt, fun hnot => by simp [hnumber] at hnot⟩
    · intro hfits
      exact hfits.number hnumber
  | false =>
    rw [if_neg (fun hand => Bool.noConfusion hand.2)]
    constructor
    · intro hdefault
      exact ⟨fun hnot => by simp [hnumber] at hnot, fun _ => hdefault⟩
    · intro hfits
      exact hfits.other hnumber

/-! ## `parseHost` -/

/-- The host is there and the port is the one of the authority. -/
def HostRead (authority : List Char) (out out' : UrlParts) : Prop :=
  out'.host ≠ [] ∧ out'.port = portOf (defaultPort out.protocol) authority

theorem bare_suffix (authority : List Char) : bare authority <:+ authority := List.dropWhile_suffix _

theorem stringSplit_bare (h : bare authority ≠ []) : stringSplit authority ':' = (bare authority).splitOn ':' :=
  stringSplit_of_ne h

theorem length_tokens (h : bare authority ≠ []) :
    (stringSplit authority ':').length = (bare authority).count ':' + 1 := by
  rw [stringSplit_bare h, Pieces.length_splitOn]

theorem parseHost_ipv6 (h : isIPv6 (address authority) = true) (out : UrlParts) :
    parseHost authority out = some (true,
      { out with host := (address authority).dropLast, port := atoi (portText authority) }) := by
  rw [parseHost, getIPv6Port_eq (colon_mem h), h]

/-- Without an IPv6 address the tokens between the colons count. -/
theorem parseHost_tokens (h : isIPv6 (address authority) = false) (out : UrlParts) :
    parseHost authority out =
      if (stringSplit authority ':').length > 2 then some (false, out)
      else (stringSplit authority ':')[0]?.bind fun host =>
        if (stringSplit authority ':').length = 2 then
          (stringSplit authority ':')[1]?.bind fun port => some (true, { out with host := host, port := atoi port })
        else some (true, { out with host := host, port := defaultPort out.protocol }) := by
  have hfst : (getIPv6Port authority).1 = false := by
    by_cases hmem : ':' ∈ authority
    · rw [getIPv6Port_eq hmem, h]
    · rw [getIPv6Port_of_not_mem hmem]
  obtain ⟨ip, port, hport⟩ : ∃ ip port, getIPv6Port authority = (false, ip, port) := ⟨_, _, Prod.ext hfst rfl⟩
  rw [parseHost, hport]
  simp only [Option.bind_eq_bind, defaultPort]
  congr 1
  cases (stringSplit authority ':')[0]? with
  | none => rfl
  | some host =>
    simp only [Option.bind_some]
    split_ifs <;> rfl

section Tokens

variable (hip : isIPv6 (address authority) = false) (out : UrlParts)
include hip

theorem parseHost_empty (h : bare authority = []) : parseHost authority out = none := by
  have hnone : stringSplit authority ':' = [] := by
    rw [stringSplit, show authority.dropWhile (· == ':') = [] from h]
  rw [parseHost_tokens hip, hnone]
  rfl

theorem parseHost_alone (h : bare authority ≠ []) (hcount : (bare authority).count ':' = 0) :
    parseHost authority out = some (true, { out with host := bare authority, port := defaultPort out.protocol }) := by
  have hsplit : stringSplit authority ':' = [bare authority] := by
    rw [stringSplit_bare h, List.splitOn_eq_singleton (List.count_eq_zero.1 hcount)]
  rw [parseHost_tokens hip, hsplit]
  rfl

theorem parseHost_pair (hcount : (bare authority).count ':' = 1) : parseHost authority out = some (true,
    { out with host := (bare authority).takeWhile (· != ':'), port := atoi (portText authority) }) := by
  have hbare : bare authority ≠ [] := by
    intro h
    simp [h] at hcount
  obtain ⟨c, rest, hdrop⟩ : ∃ c rest, (bare authority).dropWhile (· != ':') = c :: rest := by
    apply List.exists_cons_of_ne_nil
    intro hnil
    have hmem := (all_ne_colon (bare authority)).1 (List.all_eq_true.2 (List.dropWhile_eq_nil_iff.1 hnil))
    rw [List.count_eq_zero.2 hmem] at hcount
    cases hcount
  have heq := Pieces.eq_of_dropWhile_cons hdrop
  have hrest : ':' ∉ rest := by
    have hlen := congrArg List.length (Pieces.splitOn_of_dropWhile_cons hdrop)
    rw [Pieces.length_splitOn, List.length_cons, Pieces.length_splitOn, hcount] at hlen
    exact List.count_eq_zero.1 (by omega)
  have hsplit : stringSplit authority ':' = [(bare authority).takeWhile (· != ':'), rest] := by
    rw [stringSplit_bare hbare, Pieces.splitOn_of_dropWhile_cons hdrop, List.splitOn_eq_singleton hrest]
  have hport : portText authority = rest := by
    obtain ⟨pre, hpre⟩ := bare_suffix authority
    rw [portText, ← hpre, heq, ← List.append_assoc]
    exact Pieces.rtakeWhile_append_cons ':' (by simp) ((all_ne_colon rest).2 hrest) _
  rw [parseHost_tokens hip, hsplit, hport]
  rfl

theorem parseHost_refused (hcount : 2 ≤ (bare authority).count ':') : parseHost authority out = some (false, out) := by
  have hbare : bare authority ≠ [] := by
    intro h
    simp [h] at hcount
  rw [parseHost_tokens hip, length_tokens hbare, if_pos (by omega)]

end Tokens

theorem takeWhile_bare_ne_nil (h : bare authority ≠ []) : (bare authority).takeWhile (· != ':') ≠ [] := by
  obtain ⟨c, cs, hc⟩ := List.exists_cons_of_ne_nil h
  have hne : c ≠ ':' := by
    have hhead := List.head?_dropWhile_not (· == ':') authority
    rw [show authority.dropWhile (· == ':') = c :: cs from hc] at hhead
    simpa using hhead
  rw [hc, List.takeWhile_cons_of_pos (by simpa using hne)]
  exact List.cons_ne_nil _ _

/-- What `parseHost` can do. -/
theorem parseHost_cases (authority : List Char) (out : UrlParts) :
    (isIPv6 (address authority) = true ∧ parseHost authority out = some (true,
      { out with host := (address authority).dropLast, port := atoi (portText authority) })) ∨
    (isIPv6 (address authority) = false ∧
      (bare authority = [] ∧ parseHost authority out = none ∨
      bare authority ≠ [] ∧
        ((bare authority).count ':' = 0 ∧ parseHost authority out =
          some (true, { out with host := bare authority, port := defaultPort out.protocol }) ∨
        (bare authority).count ':' = 1 ∧ parseHost authority out = some (true,
          { out with host := (bare authority).takeWhile (· != ':'), port := atoi (portText authority) }) ∨
        2 ≤ (bare authority).count ':' ∧ parseHost authority out = some (false, out)))) := by
  cases hip : isIPv6 (address authority) with
  | true => exact .inl ⟨rfl, parseHost_ipv6 hip out⟩
  | false =>
    refine .inr ⟨rfl, ?_⟩
    by_cases hbare : bare authority = []
    · exact .inl ⟨hbare, parseHost_empty hip out hbare⟩
    · refine .inr ⟨hbare, ?_⟩
      obtain hcount | hcount | hcount : (bare authority).count ':' = 0 ∨ (bare authority).count ':' = 1 ∨
        2 ≤ (bare authority).count ':' := by omega
      · exact .inl ⟨hcount, parseHost_alone hip out hbare hcount⟩
      · exact .inr (.inl ⟨hcount, parseHost_pair hip out hcount⟩)
      · exact .inr (.inr ⟨hcount, parseHost_refused hip out hcount⟩)

/-- **The host is there and the port right exactly for the authorities that fit**, among those that `parseHost`
does not refuse. -/
theorem parseHost_iff (authority : List Char) (out : UrlParts) :
    (∃ r, parseHost authority out = some r ∧ (r.1 = true → HostRead authority out r.2)) ↔
      AuthorityFits (defaultPort out.protocol) authority := by
  obtain ⟨hip, he⟩ | ⟨hip, ⟨hbare, he⟩ | ⟨hbare, ⟨hcount, he⟩ | ⟨hcount, he⟩ | ⟨hcount, he⟩⟩⟩ :=
    parseHost_cases authority out
  · rw [he]
    constructor
    · rintro ⟨r, hr, hread⟩
      obtain rfl := Option.some.inj hr
      refine ⟨fun _ => (port_iff (colon_mem hip)).1 (hread rfl).2, ?_, ?_, ?_⟩ <;> simp [hip]
    · intro h
      exact ⟨_, rfl, fun _ => ⟨dropLast_ne_nil hip, (port_iff (colon_mem hip)).2 (h.ipv6 hip)⟩⟩
  · rw [he]
    constructor
    · rintro ⟨r, hr, -⟩
      cases hr
    · intro h
      exact absurd hbare (h.host hip)
  · rw [he]
    constructor
    · rintro ⟨r, hr, hread⟩
      obtain rfl := Option.some.inj hr
      refine ⟨by simp [hip], fun _ => hbare, ?_, fun _ _ => Int.ofNat_inj.1 (hread rfl).2.symm⟩
      intro _ hone
      omega
    · intro h
      exact ⟨_, rfl, fun _ => ⟨hbare, congrArg Nat.cast (h.alone hip hcount).symm⟩⟩
  · have hmem : ':' ∈ authority := (bare_suffix authority).subset (List.count_pos_iff.1 (by omega))
    rw [he]
    constructor
    · rintro ⟨r, hr, hread⟩
      obtain rfl := Option.some.inj hr
      refine ⟨by simp [hip], fun _ => hbare, fun _ _ => (port_iff hmem).1 (hread rfl).2, ?_⟩
      intro _ hzero
      omega
    · intro h
      exact ⟨_, rfl, fun _ => ⟨takeWhile_bare_ne_nil hbare, (port_iff hmem).2 (h.pair hip hcount)⟩⟩
  · rw [he]
    constructor
    · intro _
      refine ⟨by simp [hip], fun _ => hbare, ?_, ?_⟩
      · intro _ hone
        omega
      · intro _ hzero
        omega
    · intro _
      exact ⟨_, rfl, fun h => absurd h (by simp)⟩

theorem parseHost_frame {out : UrlParts} {r : Bool × UrlParts} (h : parseHost authority out = some r) :
    r.2.path = out.path ∧ r.2.protocol = out.protocol := by
  obtain ⟨-, he⟩ | ⟨-, ⟨-, he⟩ | ⟨-, ⟨-, he⟩ | ⟨-, he⟩ | ⟨-, he⟩⟩⟩ := parseHost_cases authority out
  all_goals
    rw [he] at h
    cases h
  all_goals exact ⟨rfl, rfl⟩

/-! ## `parseUrl` -/

variable {url : String}

theorem stringSplit_text (h : text url ≠ []) : stringSplit (cStr url) '/' = (text url).splitOn '/' :=
  stringSplit_of_ne h

theorem parseUrl_slashes (hne : url ≠ "") (h : text url = []) (out : UrlParts) : parseUrl url out = none := by
  have hnone : stringSplit (cStr url) '/' = [] := by
    rw [stringSplit, show (cStr url).dropWhile (· == '/') = [] from h]
  rw [parseUrl, if_neg hne, hnone]
  rfl

theorem parseUrl_short (hne : url ≠ "") {p : List Char} {ps : List (List Char)}
    (h : stringSplit (cStr url) '/' = p :: ps) (hlen : ps.length < 2) (out : UrlParts) :
    parseUrl url out = some (false, { out with protocol := p }) := by
  rw [parseUrl, if_neg hne, h]
  simp only [List.getElem?_cons_zero, Option.bind_eq_bind, Option.bind_some, List.length_cons]
  rw [if_pos (by omega)]

theorem parseUrl_long (hne : url ≠ "") {p second authority : List Char} {ps : List (List Char)}
    (h : stringSplit (cStr url) '/' = p :: second :: authority :: ps) (out : UrlParts) :
    parseUrl url out =
      if ps = [] ∧ authority = [] then some (false, { out with protocol := p })
      else parseHost authority { out with
        protocol := p
        path := if ps.flatMap ('/' :: ·) = [] then ['/'] else ps.flatMap ('/' :: ·) } := by
  rw [parseUrl, if_neg hne, h]
  simp only [List.getElem?_cons_zero, List.getElem?_cons_succ, Option.bind_eq_bind, Option.bind_some,
    List.length_cons, List.drop_succ_cons, List.drop_zero]
  rw [if_neg (by omega)]
  congr 1
  simp

/-- A url without anything behind a second slash is refused. -/
theorem parseUrl_refused (hne : url ≠ "") (ht : text url ≠ []) (h : behind url = []) (out : UrlParts) :
    ∃ out', parseUrl url out = some (false, out') := by
  have hsplit := stringSplit_text ht
  cases hfirst : (text url).dropWhile (· != '/') with
  | nil =>
    rw [Pieces.splitOn_of_dropWhile_nil hfirst] at hsplit
    exact ⟨_, parseUrl_short hne hsplit (by simp) out⟩
  | cons c r =>
    rw [Pieces.splitOn_of_dropWhile_cons hfirst] at hsplit
    cases hsecond : r.dropWhile (· != '/') with
    | nil =>
      rw [Pieces.splitOn_of_dropWhile_nil hsecond] at hsplit
      exact ⟨_, parseUrl_short hne hsplit (by simp) out⟩
    | cons c' r' =>
      have hr' : r' = [] := by simpa [behind, afterSlash, hfirst, hsecond] using h
      rw [Pieces.splitOn_of_dropWhile_cons hsecond, hr', List.splitOn_nil] at hsplit
      exact ⟨_, by rw [parseUrl_long hne hsplit, if_pos ⟨rfl, rfl⟩]⟩

/-- Otherwise its protocol and path are stored, and the authority decides. -/
theorem parseUrl_behind (hne : url ≠ "") (h : behind url ≠ []) (out : UrlParts) :
    parseUrl url out =
      parseHost (authorityOf url) { out with protocol := protocolOf url, path := pathOf url } := by
  have ht : text url ≠ [] := by
    intro ht
    exact h (by simp [behind, afterSlash, ht])
  have hsplit := stringSplit_text ht
  cases hfirst : (text url).dropWhile (· != '/') with
  | nil => exact absurd (by simp [behind, afterSlash, hfirst]) h
  | cons c r =>
    cases hsecond : r.dropWhile (· != '/') with
    | nil => exact absurd (by simp [behind, afterSlash, hfirst, hsecond]) h
    | cons c' r' =>
      have hbehind : behind url = r' := by simp [behind, afterSlash, hfirst, hsecond]
      rw [Pieces.splitOn_of_dropWhile_cons hfirst, Pieces.splitOn_of_dropWhile_cons hsecond] at hsplit
      cases hthird : r'.dropWhile (· != '/') with
      | nil =>
        have hauthority : authorityOf url ≠ [] := by
          rw [authorityOf, hbehind, List.takeWhile_eq_self_iff.2 (List.dropWhile_eq_nil_iff.1 hthird), ← hbehind]
          exact h
        have hpath : pathOf url = ['/'] := by rw [pathOf, restOf, hbehind, if_pos hthird]
        rw [Pieces.splitOn_of_dropWhile_nil hthird, ← hbehind] at hsplit
        rw [parseUrl_long hne hsplit, if_neg (fun hand => hauthority hand.2), hpath]
        rfl
      | cons c'' rest =>
        have hrest : restOf url = '/' :: rest := by
          rw [restOf, hbehind, hthird, Pieces.head_of_dropWhile_cons hthird]
        rw [Pieces.splitOn_of_dropWhile_cons hthird, ← hbehind] at hsplit
        rw [parseUrl_long hne hsplit, if_neg (fun hand => List.splitOn_ne_nil '/' rest hand.1),
          Pieces.flatMap_splitOn, pathOf, hrest]
        rfl

/-- **`parseUrl` reads only tokens that are there, and stores the parts of the url when it returns true, exactly for
the urls that are well formed.** -/
theorem parseUrl_faithful_iff (url : String) (hne : url ≠ "") (out : UrlParts) :
    (∃ r, parseUrl url out = some r ∧ (r.1 = true → Faithful url r.2)) ↔ WellFormed url := by
  by_cases ht : text url = []
  · rw [parseUrl_slashes hne ht]
    constructor
    · rintro ⟨r, hr, -⟩
      cases hr
    · intro h
      exact absurd ht h.text
  by_cases hbehind : behind url = []
  · obtain ⟨out', hout'⟩ := parseUrl_refused hne ht hbehind out
    constructor
    · intro _
      exact ⟨ht, fun h => absurd hbehind h⟩
    · intro _
      exact ⟨_, hout', fun h => absurd h (by simp)⟩
  · rw [parseUrl_behind hne hbehind]
    have hhost := parseHost_iff (authorityOf url) { out with protocol := protocolOf url, path := pathOf url }
    constructor
    · rintro ⟨r, hr, hread⟩
      refine ⟨ht, fun _ => hhost.1 ⟨r, hr, fun h => ?_⟩⟩
      exact ⟨(hread h).host, (hread h).port⟩
    · intro h
      obtain ⟨r, hr, hread⟩ := hhost.2 (h.authority hbehind)
      obtain ⟨hpath, hprotocol⟩ := parseHost_frame hr
      exact ⟨r, hr, fun htrue => ⟨(hread htrue).1, hprotocol, (hread htrue).2, hpath⟩⟩

/-- An IPv6 address with its port. -/
theorem ipv6_read : ∃ r, parseUrl "http://2001:DB8:2de::e13:80/path" {} = some r ∧
    (r.1 = true → Faithful "http://2001:DB8:2de::e13:80/path" r.2) := by
  apply (parseUrl_faithful_iff "http://2001:DB8:2de::e13:80/path" (by decide) {}).2
  have hport : PortFits 80 "80".toList := ⟨fun _ => by decide, fun h => absurd h (by decide)⟩
  exact ⟨by decide, fun _ => ⟨fun _ => hport, fun h => absurd h (by decide), fun h => absurd h (by decide),
    fun h => absurd h (by decide)⟩⟩

/-- Four components, and the third is empty. -/
theorem no_host_read : ¬ (∃ r, parseUrl "http:///path" {} = some r ∧ (r.1 = true → Faithful "http:///path" r.2)) := by
  rintro ⟨r, hr, -⟩
  rw [show parseUrl "http:///path" {} = none by decide] at hr
  cases hr

/-- A port without digits is read as zero. -/
example : parseUrl "http://host:/path" {} =
    some (true, ⟨"host".toList, 0, "/path".toList, "http:".toList⟩) := by decide

end OrionBroker.Url
