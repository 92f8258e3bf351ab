import Mathlib.Logic.Function.Basic
import OrionBroker.Common.Duration
import OrionBroker.Ngsi.Types

/-!
# URI parameters (rest.cpp:92-196)

| here | there |
| --- | --- |
| `ConnectionInfo` | `ConnectionInfo`, its URI parameters, status and answer |
| `valueCheck`     | the `if` chain of `uriArgumentGet` (:101-187): the value to store, or the details of the error |
| `uriArgumentGet` | the same (:95); `none` where a NULL `val` is read |
| `uriArguments`   | `MHD_get_connection_values` calling it for every parameter, also after an error |
| `fresh`          | what `connectionTreat` starts with (:774-777) |

`atoi` is a parameter. `pagination_valid_iff` is about the one that keeps the low 32 bits of a number of any length
(`lowBits`).
-/

namespace OrionBroker.UriParams

def URI_PARAM_NOTIFY_FORMAT : String := "notifyFormat"
def URI_PARAM_PAGINATION_OFFSET : String := "offset"
def URI_PARAM_PAGINATION_LIMIT : String := "limit"
def URI_PARAM_PAGINATION_DETAILS : String := "details"
def URI_PARAM_ATTRIBUTES_FORMAT : String := "attributesFormat"
def URI_PARAM_ATTRIBUTE_FORMAT : String := "attributeFormat"
def DEFAULT_PAGINATION_OFFSET : String := "0"
def DEFAULT_PAGINATION_LIMIT : String := "20"
def DEFAULT_PAGINATION_DETAILS : String := "off"
def MAX_PAGINATION_LIMIT : String := "1000"

structure ConnectionInfo where
  uriParam : String → String
  httpStatusCode : HttpStatusCode := .ok
  /-- The details of the last error. -/
  answer : String := ""

/-- `key=value`, or a key alone. -/
structure UriParam where
  key : String
  val : Option String
deriving DecidableEq, Repr

def valueCheck (atoi : List Char → Int) (key : String) (val : Option String) : Option (Except String String) :=
  let value := val.getD ""
  if key = URI_PARAM_NOTIFY_FORMAT then
    val.map fun val =>
      if strcasecmp val "xml" then .ok "XML"
      else if strcasecmp val "json" then .ok "JSON"
      else .error ("Bad notification format: /" ++ value ++ "/. Valid values: /XML/ and /JSON/")
  else if key = URI_PARAM_PAGINATION_OFFSET then
    val.map fun val =>
      if !val.toList.all Char.isDigit then
        .error ("Bad pagination offset: /" ++ value ++ "/ [must be a decimal number]")
      else .ok value
  else if key = URI_PARAM_PAGINATION_LIMIT then
    val.map fun val =>
      if !val.toList.all Char.isDigit then
        .error ("Bad pagination limit: /" ++ value ++ "/ [must be a decimal number]")
      else
        let limit := atoi val.toList
        if limit > atoi MAX_PAGINATION_LIMIT.toList then
          .error ("Bad pagination limit: /" ++ value ++ "/ [max: " ++ MAX_PAGINATION_LIMIT ++ "]")
        else if limit = 0 then
          .error ("Bad pagination limit: /" ++ value ++ "/ [a value of ZERO is unaccepted]")
        else .ok value
  else if key = URI_PARAM_PAGINATION_DETAILS then
    if !strcasecmp value "on" && !strcasecmp value "off" then
      some (.error ("Bad value for /details/: /" ++ value ++
        "/ [accepted: /on/, /ON/, /off/, /OFF/. Default is /off/]"))
    else some (.ok value)
  else some (.ok value)

/-- Each of the two names of the format sets the other one too (:175-184), and a NULL `val` is stored as `SET`. -/
def store (ci : ConnectionInfo) (key : String) (val : Option String) (value : String) : ConnectionInfo :=
  let uriParam :=
    if key = URI_PARAM_ATTRIBUTES_FORMAT then Function.update ci.uriParam URI_PARAM_ATTRIBUTE_FORMAT value
    else if key = URI_PARAM_ATTRIBUTE_FORMAT then Function.update ci.uriParam URI_PARAM_ATTRIBUTES_FORMAT value
    else ci.uriParam
  { ci with uriParam := Function.update uriParam key (if val = none then "SET" else value) }

def uriArgumentGet (atoi : List Char → Int) (ci : ConnectionInfo) (key : String) (val : Option String) :
    Option ConnectionInfo :=
  match valueCheck atoi key val with
  | none => none
  | some (.error details) => some { ci with httpStatusCode := .badRequest, answer := details }
  | some (.ok value) => some (store ci key val value)

def uriArguments (atoi : List Char → Int) : ConnectionInfo → List UriParam → Option ConnectionInfo
  | ci, [] => some ci
  | ci, p :: params =>
    match uriArgumentGet atoi ci p.key p.val with
    | none => none
    | some ci => uriArguments atoi ci params

def defaultParam (key : String) : String :=
  if key = URI_PARAM_PAGINATION_OFFSET then DEFAULT_PAGINATION_OFFSET
  else if key = URI_PARAM_PAGINATION_LIMIT then DEFAULT_PAGINATION_LIMIT
  else if key = URI_PARAM_PAGINATION_DETAILS then DEFAULT_PAGINATION_DETAILS
  else ""

def fresh : ConnectionInfo := { uriParam := defaultParam }

/-! ## Parameters that are accepted -/

def UriParam.value (p : UriParam) : String := p.val.getD ""

/-- The parameters whose `val` is read without a test for NULL. -/
def NeedsValue (key : String) : Prop :=
  key = URI_PARAM_NOTIFY_FORMAT ∨ key = URI_PARAM_PAGINATION_OFFSET ∨ key = URI_PARAM_PAGINATION_LIMIT

/-- What each of the checked parameters has to be. -/
structure Fits (atoi : List Char → Int) (p : UriParam) : Prop where
  notifyFormat : p.key = URI_PARAM_NOTIFY_FORMAT → strcasecmp p.value "xml" = true ∨ strcasecmp p.value "json" = true
  offset : p.key = URI_PARAM_PAGINATION_OFFSET → p.value.toList.all Char.isDigit = true
  limit : p.key = URI_PARAM_PAGINATION_LIMIT → p.value.toList.all Char.isDigit = true ∧
    atoi p.value.toList ≤ atoi MAX_PAGINATION_LIMIT.toList ∧ atoi p.value.toList ≠ 0
  details : p.key = URI_PARAM_PAGINATION_DETAILS → strcasecmp p.value "on" = true ∨ strcasecmp p.value "off" = true

/-- The value of the last parameter of the given name. -/
def lastValue (key default : String) : List UriParam → String
  | [] => default
  | p :: params => lastValue key (if p.key = key then p.value else default) params

section Step

variable {atoi : List Char → Int} {ci : ConnectionInfo} {p : UriParam}

theorem valueCheck_none (hkey : NeedsValue p.key) (hval : p.val = none) : valueCheck atoi p.key p.val = none := by
  unfold valueCheck
  rcases hkey with hkey | hkey | hkey
  · simp [hkey, hval]
  · simp [hkey, hval, URI_PARAM_NOTIFY_FORMAT, URI_PARAM_PAGINATION_OFFSET]
  · simp [hkey, hval, URI_PARAM_NOTIFY_FORMAT, URI_PARAM_PAGINATION_OFFSET, URI_PARAM_PAGINATION_LIMIT]

theorem val_of_needed {key : String} (hval : NeedsValue p.key → p.val ≠ none) (hkey : p.key = key)
    (hneeds : NeedsValue key) : p.val = some p.value := by
  obtain ⟨v, hv⟩ := Option.ne_none_iff_exists'.1 (hval (hkey ▸ hneeds))
  simp [UriParam.value, hv]

theorem fits_notifyFormat (hkey : p.key = URI_PARAM_NOTIFY_FORMAT) :
    Fits atoi p ↔ strcasecmp p.value "xml" = true ∨ strcasecmp p.value "json" = true := by
  refine ⟨fun h => h.notifyFormat hkey, fun h => ⟨fun _ => h, ?_, ?_, ?_⟩⟩
  all_goals
    rw [hkey]
    exact fun he => absurd he (by decide)

theorem fits_offset (hkey : p.key = URI_PARAM_PAGINATION_OFFSET) :
    Fits atoi p ↔ p.value.toList.all Char.isDigit = true := by
  refine ⟨fun h => h.offset hkey, fun h => ⟨?_, fun _ => h, ?_, ?_⟩⟩
  all_goals
    rw [hkey]
    exact fun he => absurd he (by decide)

theorem fits_limit (hkey : p.key = URI_PARAM_PAGINATION_LIMIT) :
    Fits atoi p ↔ p.value.toList.all Char.isDigit = true ∧
      atoi p.value.toList ≤ atoi MAX_PAGINATION_LIMIT.toList ∧ atoi p.value.toList ≠ 0 := by
  refine ⟨fun h => h.limit hkey, fun h => ⟨?_, ?_, fun _ => h, ?_⟩⟩
  all_goals
    rw [hkey]
    exact fun he => absurd he (by decide)

theorem fits_details (hkey : p.key = URI_PARAM_PAGINATION_DETAILS) :
    Fits atoi p ↔ strcasecmp p.value "on" = true ∨ strcasecmp p.value "off" = true := by
  refine ⟨fun h => h.details hkey, fun h => ⟨?_, ?_, ?_, fun _ => h⟩⟩
  all_goals
    rw [hkey]
    exact fun he => absurd he (by decide)

/-- What the chain of `if`s makes of a parameter: one case for each of the checked names. -/
theorem valueCheck_cases (atoi : List Char → Int) (hval : NeedsValue p.key → p.val ≠ none) :
    (Fits atoi p ∧ ∃ v, valueCheck atoi p.key p.val = some (.ok v) ∧
      (p.key ≠ URI_PARAM_NOTIFY_FORMAT → v = p.value)) ∨
    (¬ Fits atoi p ∧ ∃ e, valueCheck atoi p.key p.val = some (.error e)) := by
  unfold valueCheck
  by_cases hformat : p.key = URI_PARAM_NOTIFY_FORMAT
  · rw [if_pos hformat, val_of_needed hval hformat (.inl rfl), Option.map_some, fits_notifyFormat hformat]
    by_cases hxml : strcasecmp p.value "xml" = true
    · exact .inl ⟨.inl hxml, "XML", by simp [hxml], fun h => absurd hformat h⟩
    · by_cases hjson : strcasecmp p.value "json" = true
      · exact .inl ⟨.inr hjson, "JSON", by simp [hxml, hjson], fun h => absurd hformat h⟩
      · exact .inr ⟨by simp [hxml, hjson], _, by rw [if_neg hxml, if_neg hjson]⟩
  · rw [if_neg hformat]
    by_cases hoffset : p.key = URI_PARAM_PAGINATION_OFFSET
    · rw [if_pos hoffset, val_of_needed hval hoffset (.inr (.inl rfl)), Option.map_some, fits_offset hoffset]
      by_cases hdigits : p.value.toList.all Char.isDigit = true
      · exact .inl ⟨hdigits, p.value, by simp [hdigits], fun _ => rfl⟩
      · exact .inr ⟨hdigits, _, by rw [if_pos (by simpa using hdigits)]⟩
    · rw [if_neg hoffset]
      by_cases hlimit : p.key = URI_PARAM_PAGINATION_LIMIT
      · rw [if_pos hlimit, val_of_needed hval hlimit (.inr (.inr rfl)), Option.map_some, fits_limit hlimit]
        by_cases hdigits : p.value.toList.all Char.isDigit = true
        · rw [if_neg (by simp [hdigits])]
          by_cases hmax : atoi p.value.toList > atoi MAX_PAGINATION_LIMIT.toList
          · exact .inr ⟨fun h => absurd hmax (Int.not_lt.2 h.2.1), _, by rw [if_pos hmax]⟩
          · rw [if_neg hmax]
            by_cases hzero : atoi p.value.toList = 0
            · exact .inr ⟨fun h => h.2.2 hzero, _, by rw [if_pos hzero]⟩
            · exact .inl ⟨⟨hdigits, Int.not_lt.1 hmax, hzero⟩, p.value, by simp [hzero], fun _ => rfl⟩
        · exact .inr ⟨fun h => hdigits h.1, _, by rw [if_pos (by simpa using hdigits)]⟩
      · rw [if_neg hlimit]
        by_cases hdetails : p.key = URI_PARAM_PAGINATION_DETAILS
        · rw [if_pos hdetails, fits_details hdetails]
          by_cases hon : strcasecmp p.value "on" = true ∨ strcasecmp p.value "off" = true
          · have hneither : ¬ (!strcasecmp p.value "on" && !strcasecmp p.value "off") = true := by
              rcases hon with h | h <;> simp [h]
            exact .inl ⟨hon, p.value, if_neg hneither, fun _ => rfl⟩
          · have hneither : (!strcasecmp p.value "on" && !strcasecmp p.value "off") = true := by
              rw [not_or, Bool.not_eq_true, Bool.not_eq_true] at hon
              simp [hon]
            exact .inr ⟨hon, _, if_pos hneither⟩
        · rw [if_neg hdetails]
          refine .inl ⟨⟨fun h => absurd h hformat, fun h => absurd h hoffset, fun h => absurd h hlimit,
            fun h => absurd h hdetails⟩, p.value, rfl, fun _ => rfl⟩

theorem uriArgumentGet_none (hkey : NeedsValue p.key) (hval : p.val = none) :
    uriArgumentGet atoi ci p.key p.val = none := by
  rw [uriArgumentGet, valueCheck_none hkey hval]

/-- One of the two pagination parameters. -/
def IsPagination (key : String) : Prop := key = URI_PARAM_PAGINATION_OFFSET ∨ key = URI_PARAM_PAGINATION_LIMIT

/-- A parameter that fits is stored, and leaves the status alone. -/
theorem uriArgumentGet_fits (ci : ConnectionInfo) (hval : NeedsValue p.key → p.val ≠ none) (hfits : Fits atoi p) :
    ∃ ci', uriArgumentGet atoi ci p.key p.val = some ci' ∧ ci'.httpStatusCode = ci.httpStatusCode ∧
      ∀ key, IsPagination key → ci'.uriParam key = if p.key = key then p.value else ci.uriParam key := by
  obtain ⟨_, v, hv, hvalue⟩ | ⟨hnot, _⟩ := valueCheck_cases atoi hval
  · refine ⟨store ci p.key p.val v, by rw [uriArgumentGet, hv], rfl, fun key hkey => ?_⟩
    unfold store
    by_cases hsame : p.key = key
    · subst hsame
      have hneeds : NeedsValue p.key := .inr hkey
      have hformat : p.key ≠ URI_PARAM_NOTIFY_FORMAT := by
        rcases hkey with h | h <;> rw [h] <;> decide
      simp only [Function.update_self, if_neg (hval hneeds), hvalue hformat, if_pos]
    · have hne : key ≠ URI_PARAM_ATTRIBUTE_FORMAT ∧ key ≠ URI_PARAM_ATTRIBUTES_FORMAT := by
        rcases hkey with rfl | rfl <;> decide
      simp only [if_neg hsame, Function.update_of_ne (Ne.symm hsame)]
      split_ifs
      · rw [Function.update_of_ne hne.1]
      · rw [Function.update_of_ne hne.2]
      · rfl
  · exact absurd hfits hnot

theorem uriArgumentGet_refused (ci : ConnectionInfo) (hval : NeedsValue p.key → p.val ≠ none) (hfits : ¬ Fits atoi p) :
    ∃ ci', uriArgumentGet atoi ci p.key p.val = some ci' ∧ ci'.httpStatusCode = .badRequest := by
  obtain ⟨h, _⟩ | ⟨_, e, he⟩ := valueCheck_cases atoi hval
  · exact absurd h hfits
  · exact ⟨_, by rw [uriArgumentGet, he], rfl⟩

end Step

/-! ## All parameters of a request -/

section Run

variable {atoi : List Char → Int}

theorem uriArguments_none : ∀ {params : List UriParam} {ci : ConnectionInfo},
    (∃ p ∈ params, NeedsValue p.key ∧ p.val = none) → uriArguments atoi ci params = none
  | [], _, h => by simp at h
  | p :: params, ci, h => by
    rw [uriArguments]
    cases hp : uriArgumentGet atoi ci p.key p.val with
    | none => rfl
    | some ci' =>
      obtain ⟨q, hq, hneeds, hnone⟩ := h
      rcases List.mem_cons.1 hq with rfl | hq
      · rw [uriArgumentGet_none hneeds hnone] at hp
        cases hp
      · exact uriArguments_none ⟨q, hq, hneeds, hnone⟩

/-- A request in which every value that is read is there: the last value of a name is stored, or there is an error. -/
theorem uriArguments_some (atoi : List Char → Int) : ∀ {params : List UriParam} (ci : ConnectionInfo),
    (∀ p ∈ params, NeedsValue p.key → p.val ≠ none) →
    ∃ ci', uriArguments atoi ci params = some ci' ∧
      ((∀ p ∈ params, Fits atoi p) → ci'.httpStatusCode = ci.httpStatusCode ∧
        ∀ key, IsPagination key → ci'.uriParam key = lastValue key (ci.uriParam key) params) ∧
      ((∃ p ∈ params, ¬ Fits atoi p) ∨ ci.httpStatusCode = .badRequest → ci'.httpStatusCode = .badRequest)
  | [], ci, _ => ⟨ci, rfl, fun _ => ⟨rfl, fun _ _ => rfl⟩, by simp⟩
  | p :: params, ci, hval => by
    have hrest : ∀ q ∈ params, NeedsValue q.key → q.val ≠ none := fun q hq => hval q (List.mem_cons_of_mem _ hq)
    by_cases hfits : Fits atoi p
    · obtain ⟨ci1, h1, hstatus, hparams⟩ := uriArgumentGet_fits ci (hval p List.mem_cons_self) hfits
      obtain ⟨ci', h', hall, hbad⟩ := uriArguments_some atoi ci1 hrest
      refine ⟨ci', by rw [uriArguments, h1]; exact h', fun h => ?_, fun h => hbad ?_⟩
      · obtain ⟨hs, hp⟩ := hall fun q hq => h q (List.mem_cons_of_mem _ hq)
        refine ⟨hs.trans hstatus, fun key hkey => ?_⟩
        rw [hp key hkey, hparams key hkey]
        rfl
      · rcases h with ⟨q, hq, hnot⟩ | h
        · rcases List.mem_cons.1 hq with rfl | hq
          · exact absurd hfits hnot
          · exact .inl ⟨q, hq, hnot⟩
        · exact .inr (hstatus.trans h)
    · obtain ⟨ci1, h1, hstatus⟩ := uriArgumentGet_refused ci (hval p List.mem_cons_self) hfits
      obtain ⟨ci', h', _, hbad⟩ := uriArguments_some atoi ci1 hrest
      exact ⟨ci', by rw [uriArguments, h1]; exact h', fun h => absurd (h p List.mem_cons_self) hfits,
        fun _ => hbad (.inr hstatus)⟩

/-- What is stored under a name is the default, or the value of a parameter. -/
theorem lastValue_cases (key default : String) : ∀ params : List UriParam,
    lastValue key default params = default ∨ ∃ p ∈ params, p.key = key ∧ lastValue key default params = p.value
  | [] => .inl rfl
  | p :: params => by
    rw [lastValue]
    rcases lastValue_cases key (if p.key = key then p.value else default) params with h | ⟨q, hq, hkey, h⟩
    · rw [h]
      by_cases hp : p.key = key
      · exact .inr ⟨p, List.mem_cons_self, hp, if_pos hp⟩
      · exact .inl (if_neg hp)
    · exact .inr ⟨q, List.mem_cons_of_mem _ hq, hkey, h⟩

end Run

/-! ## The numbers -/

/-- The low 32 bits of a number, signed. -/
def lowBits (cs : List Char) : Int := toInt32 (digitsValue cs)

theorem lowBits_nonneg_iff (cs : List Char) : 0 ≤ lowBits cs ↔ digitsValue cs % 2 ^ 32 < 2 ^ 31 := by
  unfold lowBits toInt32
  rw [Int.bmod_def]
  split <;> omega

/-- The number of the last parameter of the given name, in the low 32 bits. -/
def storedBits (key : String) (params : List UriParam) : Nat :=
  digitsValue (lastValue key (defaultParam key) params).toList % 2 ^ 32

theorem defaultLimit_fits : lowBits (defaultParam URI_PARAM_PAGINATION_LIMIT).toList ≤ 1000 ∧
    lowBits (defaultParam URI_PARAM_PAGINATION_LIMIT).toList ≠ 0 := by
  decide

/-- An accepted limit is neither zero nor above the maximum. -/
theorem lowBits_lastValue_limit {params : List UriParam} (hfits : ∀ p ∈ params, Fits lowBits p) :
    lowBits (lastValue URI_PARAM_PAGINATION_LIMIT (defaultParam URI_PARAM_PAGINATION_LIMIT) params).toList ≤ 1000 ∧
    lowBits (lastValue URI_PARAM_PAGINATION_LIMIT (defaultParam URI_PARAM_PAGINATION_LIMIT) params).toList ≠ 0 := by
  have hmax : lowBits MAX_PAGINATION_LIMIT.toList = 1000 := by decide
  rcases lastValue_cases URI_PARAM_PAGINATION_LIMIT (defaultParam URI_PARAM_PAGINATION_LIMIT) params with
    h | ⟨p, hp, hkey, h⟩
  · rw [h]
    exact defaultLimit_fits
  · rw [h, ← hmax]
    exact ((fits_limit hkey).1 (hfits p hp)).2

/-- **The pagination is valid**, and no missing value is read, in exactly the requests in which `notifyFormat`,
`offset` and `limit` come with a value and, if all parameters are accepted, the numbers that count have their sign
bit clear. -/
theorem pagination_valid_iff (params : List UriParam) :
    (uriArguments lowBits fresh params ≠ none ∧
      ∀ ci, uriArguments lowBits fresh params = some ci → ci.httpStatusCode = .ok →
        (1 ≤ lowBits (ci.uriParam URI_PARAM_PAGINATION_LIMIT).toList ∧
          lowBits (ci.uriParam URI_PARAM_PAGINATION_LIMIT).toList ≤ 1000) ∧
        0 ≤ lowBits (ci.uriParam URI_PARAM_PAGINATION_OFFSET).toList) ↔
    (∀ p ∈ params, NeedsValue p.key → p.val ≠ none) ∧
      ((∀ p ∈ params, Fits lowBits p) →
        storedBits URI_PARAM_PAGINATION_LIMIT params < 2 ^ 31 ∧
        storedBits URI_PARAM_PAGINATION_OFFSET params < 2 ^ 31) := by
  by_cases hval : ∀ p ∈ params, NeedsValue p.key → p.val ≠ none
  · obtain ⟨ci', h', hall, hbad⟩ := uriArguments_some lowBits fresh hval
    by_cases hfits : ∀ p ∈ params, Fits lowBits p
    · obtain ⟨hstatus, hparams⟩ := hall hfits
      have hl : ci'.uriParam URI_PARAM_PAGINATION_LIMIT =
          lastValue URI_PARAM_PAGINATION_LIMIT (defaultParam URI_PARAM_PAGINATION_LIMIT) params :=
        hparams URI_PARAM_PAGINATION_LIMIT (.inr rfl)
      have ho : ci'.uriParam URI_PARAM_PAGINATION_OFFSET =
          lastValue URI_PARAM_PAGINATION_OFFSET (defaultParam URI_PARAM_PAGINATION_OFFSET) params :=
        hparams URI_PARAM_PAGINATION_OFFSET (.inl rfl)
      have hlimit := lowBits_lastValue_limit hfits
      rw [storedBits, storedBits, ← hl, ← ho, ← lowBits_nonneg_iff, ← lowBits_nonneg_iff, h']
      rw [← hl] at hlimit
      constructor
      · rintro ⟨_, h⟩
        obtain ⟨hlim, hoff⟩ := h ci' rfl hstatus
        exact ⟨hval, fun _ => ⟨by omega, hoff⟩⟩
      · rintro ⟨_, h⟩
        obtain ⟨hlim, hoff⟩ := h hfits
        refine ⟨by simp, fun ci hci _ => ?_⟩
        cases hci
        exact ⟨⟨by omega, hlimit.1⟩, hoff⟩
    · have hstatus : ci'.httpStatusCode = .badRequest := by
        apply hbad
        simpa using Or.inl hfits
      rw [h']
      refine ⟨fun _ => ⟨hval, fun h => absurd h hfits⟩, fun _ => ⟨by simp, fun ci hci hok => ?_⟩⟩
      cases hci
      rw [hstatus] at hok
      cases hok
  · have hnone : uriArguments lowBits fresh params = none := by
      apply uriArguments_none
      simpa using hval
    rw [hnone]
    exact ⟨fun h => absurd rfl h.1, fun h => absurd h.1 hval⟩

/-- **A limit of 2^32 - 1** is accepted, and read as -1; and `?limit` alone is read through a NULL pointer. -/
theorem limit_slips :
    (∃ ci, uriArguments lowBits fresh [⟨"limit", some "4294967295"⟩] = some ci ∧ ci.httpStatusCode = .ok ∧
      lowBits (ci.uriParam URI_PARAM_PAGINATION_LIMIT).toList = -1) ∧
    uriArguments lowBits fresh [⟨"limit", none⟩] = none ∧
    ¬ (uriArguments lowBits fresh [⟨"limit", some "4294967295"⟩] ≠ none ∧
      ∀ ci, uriArguments lowBits fresh [⟨"limit", some "4294967295"⟩] = some ci → ci.httpStatusCode = .ok →
        (1 ≤ lowBits (ci.uriParam URI_PARAM_PAGINATION_LIMIT).toList ∧
          lowBits (ci.uriParam URI_PARAM_PAGINATION_LIMIT).toList ≤ 1000) ∧
        0 ≤ lowBits (ci.uriParam URI_PARAM_PAGINATION_OFFSET).toList) := by
  have hneg : ∃ ci, uriArguments lowBits fresh [⟨"limit", some "4294967295"⟩] = some ci ∧ ci.httpStatusCode = .ok ∧
      lowBits (ci.uriParam URI_PARAM_PAGINATION_LIMIT).toList = -1 :=
    ⟨_, rfl, rfl, by decide⟩
  refine ⟨hneg, by decide, ?_⟩
  rintro ⟨_, h⟩
  obtain ⟨ci, hci, hok, hbits⟩ := hneg
  have := (h ci hci hok).1.1
  rw [hbits] at this
  exact absurd this (by decide)

end OrionBroker.UriParams
