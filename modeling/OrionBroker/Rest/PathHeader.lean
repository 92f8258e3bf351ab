import OrionBroker.Common.ServicePath

/-!
# The Fiware-ServicePath header (rest.cpp:428-551)

The value of the header is split at its commas, each piece is stripped of white space and of trailing slashes, and
the result is checked by components.

| here | there |
| --- | --- |
| `partCheck`           | the loop over the components in `servicePathCheck` (:460-486) |
| `servicePathCheck`    | the same (:428); `received` is `servicePathReceived` |
| `removeTrailingSlash` | the same (:498) |
| `servicePathSplit`    | the same (:517), with `servicePathV` when it returns 0 |

`stringSplit` drops leading slashes and keeps empty components in the middle, and the check has nothing against an
empty component: `//a` and `/a//b` are accepted as they stand. `servicePathSplit_canonical_iff` says that doubled
slashes are the only thing to go wrong.
-/

namespace OrionBroker

/-- The number a check returns, and the details of the error it answers with. -/
structure PathError where
  code : Int
  details : String
deriving DecidableEq, Repr

def partCheck : List (List Char) → Except PathError Unit
  | [] => .ok ()
  | c :: cs =>
    if c.length > 50 then .error ⟨3, "component-name too long in ServicePath"⟩
    else if cs = [] ∧ c = ['#'] then partCheck cs
    else if c.all pathChar then partCheck cs
    else .error ⟨4, "a component of ServicePath contains an illegal character"⟩

def servicePathCheck (received : Bool) (servicePath : List Char) : Except PathError Unit :=
  if received = false then .ok ()
  else if servicePath.head? ≠ some '/' then
    .error ⟨1, "Only /absolute/ Service Paths allowed [a service path must begin with /]"⟩
  else
    let compV := stringSplit servicePath '/'
    if compV.length > 10 then .error ⟨2, "too many components in ServicePath"⟩ else partCheck compV

/-- The first character is never removed. -/
def removeTrailingSlash : List Char → List Char
  | [] => []
  | c :: cs => c :: cs.rdropWhile (· == '/')

def trimmedPaths (header : String) : List (List Char) :=
  (stringSplit (cStr header) ',').map fun path => removeTrailingSlash (wsStrip path)

def servicePathSplit (received : Bool) (header : String) : Except PathError (List String) :=
  let servicePathV := trimmedPaths header
  if servicePathV.length > 10 then
    .error ⟨-1, "too many service paths - a maximum of ten service paths is allowed"⟩
  else do
    servicePathV.forM (servicePathCheck received)
    return servicePathV.map String.ofList

/-! ## Accepted paths -/

/-- A component that may be empty. -/
def pathPart (c : List Char) : Bool := decide (c.length ≤ 50) && c.all pathChar

def partsOk : List (List Char) → Bool
  | [] => true
  | [c] => c == ['#'] || pathPart c
  | c :: cs => pathPart c && partsOk cs

theorem partCheck_iff : ∀ cs : List (List Char), partCheck cs = .ok () ↔ partsOk cs = true
  | [] => by simp [partCheck, partsOk]
  | [c] => by
    by_cases hlong : c.length > 50
    · have hhash : c ≠ ['#'] := by
        rintro rfl
        simp at hlong
      simp [partCheck, partsOk, pathPart, hlong, hhash, Nat.not_le.2 hlong]
    · by_cases hhash : c = ['#']
      · simp [partCheck, partsOk, hhash]
      · by_cases hchars : c.all pathChar = true
        · simp [partCheck, partsOk, pathPart, hlong, hhash, hchars, Nat.not_lt.1 hlong]
        · simp [partCheck, partsOk, pathPart, hlong, hhash, hchars]
  | c :: d :: cs => by
    have ih := partCheck_iff (d :: cs)
    rw [partCheck, show partsOk (c :: d :: cs) = (pathPart c && partsOk (d :: cs)) from rfl, Bool.and_eq_true, ← ih]
    by_cases hlong : c.length > 50
    · simp [pathPart, hlong, Nat.not_le.2 hlong]
    · by_cases hchars : c.all pathChar = true
      · simp [pathPart, hlong, hchars, Nat.not_lt.1 hlong]
      · simp [pathPart, hlong, hchars]

/-- A path that `servicePathSplit` puts into `servicePathV`. -/
structure AcceptedPath (r : List Char) : Prop where
  head : ∃ t, r = '/' :: t
  levels : (stringSplit r '/').length ≤ 10
  parts : partsOk (stringSplit r '/') = true
  trimmed : r = ['/'] ∨ r.getLast? ≠ some '/'

theorem removeTrailingSlash_trimmed : ∀ {l r : List Char}, removeTrailingSlash l = r → (∃ t, r = '/' :: t) →
    r = ['/'] ∨ r.getLast? ≠ some '/'
  | [], r, h, ⟨t, ht⟩ => by
    rw [ht, removeTrailingSlash] at h
    cases h
  | c :: cs, r, h, ⟨t, ht⟩ => by
    rw [removeTrailingSlash] at h
    subst h
    obtain ⟨rfl, -⟩ := List.cons.inj ht
    cases hd : cs.rdropWhile (· == '/') with
    | nil => exact .inl rfl
    | cons x xs =>
      refine .inr ?_
      have hlast := List.rdropWhile_last_not (· == '/') cs (by rw [hd]; simp)
      rw [List.getLast?_cons_cons, ← hd, List.getLast?_eq_getLast_of_ne_nil (by rw [hd]; simp)]
      simpa using hlast

theorem forM_ok_iff {α ε : Type} {f : α → Except ε Unit} : ∀ {l : List α},
    l.forM f = .ok () ↔ ∀ x ∈ l, f x = .ok ()
  | [] => by simp [List.forM, pure, Except.pure]
  | x :: l => by
    have ih := @forM_ok_iff α ε f l
    rw [List.forM_eq_forM] at ih ⊢
    rw [List.forM_cons, List.forall_mem_cons, ← ih]
    cases f x with
    | error e => simp [bind, Except.bind]
    | ok u => simp [bind, Except.bind]

theorem servicePathCheck_iff {r : List Char} : servicePathCheck true r = .ok () ↔
    (∃ t, r = '/' :: t) ∧ (stringSplit r '/').length ≤ 10 ∧ partsOk (stringSplit r '/') = true := by
  have hhead : r.head? = some '/' ↔ ∃ t, r = '/' :: t := by
    cases r <;> simp
  rw [← hhead, servicePathCheck, if_neg (by simp), ← partCheck_iff]
  by_cases h1 : r.head? = some '/'
  · by_cases h2 : (stringSplit r '/').length > 10
    · simp [h1, h2, Nat.not_le.2 h2]
    · simp [h1, h2, Nat.not_lt.1 h2]
  · simp [h1]

/-- What is accepted, and what it becomes. -/
theorem servicePathSplit_ok_iff {header : String} {v : List String} : servicePathSplit true header = .ok v ↔
    (trimmedPaths header).length ≤ 10 ∧ (∀ r ∈ trimmedPaths header, servicePathCheck true r = .ok ()) ∧
    v = (trimmedPaths header).map String.ofList := by
  unfold servicePathSplit
  dsimp only
  by_cases hlen : (trimmedPaths header).length > 10
  · rw [if_pos hlen]
    exact iff_of_false (fun h => nomatch h) fun h => Nat.not_le.2 hlen h.1
  · rw [if_neg hlen, ← forM_ok_iff]
    cases (trimmedPaths header).forM (servicePathCheck true) with
    | error e => exact iff_of_false (fun h => nomatch h) fun h => nomatch h.2.1
    | ok u => exact ⟨fun h => ⟨Nat.not_lt.1 hlen, rfl, (Except.ok.inj h).symm⟩, fun h => by rw [h.2.2]; rfl⟩

theorem servicePathSplit_eq {header : String} {v : List String} (h : servicePathSplit true header = .ok v) :
    v = (trimmedPaths header).map String.ofList ∧ ∀ r ∈ trimmedPaths header, AcceptedPath r := by
  obtain ⟨-, hcheck, hv⟩ := servicePathSplit_ok_iff.1 h
  refine ⟨hv, fun r hr => ?_⟩
  obtain ⟨hhead, hlevels, hparts⟩ := servicePathCheck_iff.1 (hcheck r hr)
  obtain ⟨piece, -, hpiece⟩ := List.mem_map.1 hr
  exact ⟨hhead, hlevels, hparts, removeTrailingSlash_trimmed hpiece hhead⟩

/-! ## Doubled slashes -/

/-- What the trimming does not take away: a piece that does not begin with something that is dropped. -/
theorem infix_dropWhile {α : Type} {p : α → Bool} {x : α} {w : List α} (hx : p x = false) :
    ∀ {s : List α}, (x :: w) <:+: s → (x :: w) <:+: s.dropWhile p
  | [], h => by simp at h
  | c :: s, h => by
    by_cases hc : p c = true
    · rw [List.dropWhile_cons_of_pos hc]
      rcases List.infix_cons_iff.1 h with hpre | hin
      · obtain ⟨rfl, -⟩ := List.cons_prefix_cons.1 hpre
        rw [hx] at hc
        cases hc
      · exact infix_dropWhile hx hin
    · rwa [List.dropWhile_cons_of_neg hc]

theorem infix_rdropWhile {α : Type} {p : α → Bool} {x : α} {w s : List α} (hx : p x = false) (h : (w ++ [x]) <:+: s) :
    (w ++ [x]) <:+: s.rdropWhile p := by
  rw [List.rdropWhile, ← List.reverse_infix, List.reverse_reverse, List.reverse_append, List.reverse_singleton]
  refine infix_dropWhile hx ?_
  have := List.reverse_infix.2 h
  rwa [List.reverse_append, List.reverse_singleton] at this

/-- A piece without the delimiter stands on one side of it. -/
theorem infix_append_cons {α : Type} {a : α} {w xs as : List α} (ha : a ∉ w) (h : w <:+: xs ++ a :: as) :
    w <:+: xs ∨ w <:+: as := by
  obtain ⟨pre, post, h⟩ := h
  rw [List.append_assoc] at h
  rcases List.append_eq_append_iff.1 h with ⟨l, hxs, hl⟩ | ⟨l, hpre, hl⟩
  · rcases List.append_eq_append_iff.1 hl with ⟨l', hl', -⟩ | ⟨l', hw, htail⟩
    · exact .inl ⟨pre, l', by rw [hxs, hl', List.append_assoc]⟩
    · cases l' with
      | nil => exact .inl ⟨pre, [], by rw [hxs, hw]; simp⟩
      | cons y l' =>
        obtain ⟨rfl, -⟩ := List.cons.inj htail
        exact absurd (by rw [hw]; simp) ha
  · cases l with
    | nil =>
      rw [List.nil_append] at hl
      cases w with
      | nil => exact .inl (List.nil_infix)
      | cons y w =>
        obtain ⟨rfl, -⟩ := List.cons.inj hl
        exact absurd List.mem_cons_self ha
    | cons y l =>
      obtain ⟨-, hl⟩ := List.cons.inj hl
      exact .inr ⟨l, post, by rw [List.append_assoc]; exact hl.symm⟩

theorem infix_splitOn {a : Char} {w : List Char} (ha : a ∉ w) (s : List Char) :
    w <:+: s ↔ ∃ piece ∈ s.splitOn a, w <:+: piece := by
  induction hn : s.length using Nat.strong_induction_on generalizing s with
  | _ n ih =>
    by_cases hmem : a ∈ s
    · obtain ⟨xs, as, rfl, hxs⟩ := List.eq_append_cons_of_mem hmem
      rw [List.splitOn_append_cons_self_of_not_mem hxs, List.exists_mem_cons_iff,
        ← ih as.length (by rw [← hn]; simp; omega) as rfl]
      constructor
      · exact infix_append_cons ha
      · rintro (h | h)
        · exact h.trans (List.prefix_append xs _).isInfix
        · exact h.trans ((List.suffix_cons a as).trans (List.suffix_append xs _)).isInfix
    · rw [List.splitOn_eq_singleton hmem]
      simp

/-- Two slashes with a character of a component behind them. -/
def doubled (c : Char) : List Char := ['/', '/', c]

def componentChar (c : Char) : Bool := pathChar c || c == '#'

theorem componentChar_ne {c d : Char} (h : componentChar c = true) (hd : componentChar d = false) : c ≠ d := by
  rintro rfl
  rw [h] at hd
  cases hd

/-- Nothing but slashes is removed, and only from the end. -/
theorem removeTrailingSlash_within (l : List Char) :
    removeTrailingSlash l <+: l ∧ l.rdropWhile (· == '/') <:+: removeTrailingSlash l := by
  cases l with
  | nil => simp [removeTrailingSlash]
  | cons x cs =>
    refine ⟨(List.prefix_cons_inj x).2 (List.rdropWhile_prefix _ cs), ?_⟩
    rw [removeTrailingSlash, List.rdropWhile, List.reverse_cons, List.dropWhile_append]
    split
    · rw [List.dropWhile_cons]
      split
      · exact List.nil_infix
      · exact ⟨[], cs.rdropWhile (· == '/'), rfl⟩
    · rw [List.reverse_append]
      exact List.infix_rfl

/-- The trimming keeps doubled slashes. -/
theorem doubled_trimmed {c : Char} (hc : componentChar c = true) (header : String) :
    doubled c <:+: cStr header ↔ ∃ r ∈ trimmedPaths header, doubled c <:+: r := by
  have hcomma : ',' ∉ doubled c := by
    simp [doubled, (componentChar_ne hc (d := ',') (by decide)).symm]
  have hws : isWs c = false := by
    unfold isWs
    simp [componentChar_ne hc (d := ' ') (by decide), componentChar_ne hc (d := '\t') (by decide),
      componentChar_ne hc (d := '\n') (by decide)]
  have hslash : (c == '/') = false := by simpa using componentChar_ne hc (d := '/') (by decide)
  have hsplit : doubled c <:+: cStr header ↔ ∃ piece ∈ stringSplit (cStr header) ',', doubled c <:+: piece := by
    have hdrop : doubled c <:+: cStr header ↔ doubled c <:+: (cStr header).dropWhile (· == ',') :=
      ⟨infix_dropWhile (by decide), fun h => h.trans (List.dropWhile_suffix _).isInfix⟩
    rw [hdrop, infix_splitOn hcomma, stringSplit]
    cases (cStr header).dropWhile (· == ',') with
    | nil => simp [doubled]
    | cons x rest => rfl
  rw [hsplit, trimmedPaths]
  simp only [List.mem_map, exists_exists_and_eq_and]
  refine exists_congr fun piece => and_congr_right fun _ => ⟨fun h => ?_, fun h => ?_⟩
  · have hstrip : doubled c <:+: wsStrip piece :=
      infix_rdropWhile (w := ['/', '/']) hws (infix_dropWhile (by decide) h)
    have hslashes : doubled c <:+: (wsStrip piece).rdropWhile (· == '/') :=
      infix_rdropWhile (w := ['/', '/']) hslash hstrip
    exact hslashes.trans (removeTrailingSlash_within _).2
  · refine h.trans ((removeTrailingSlash_within _).1.isInfix.trans ?_)
    exact (List.rdropWhile_prefix _ _).isInfix.trans (List.dropWhile_suffix _).isInfix

/-- Two slashes before a character that is not one. -/
theorem doubled_of_slashes {r : List Char} (h : ['/', '/'] <:+: r) (hlast : r.getLast? ≠ some '/') :
    ∃ c, c ≠ '/' ∧ doubled c <:+: r := by
  obtain ⟨pre, post, rfl⟩ := h
  induction post generalizing pre with
  | nil => simp at hlast
  | cons c post ih =>
    by_cases hc : c = '/'
    · subst hc
      have := ih (pre ++ ['/']) (by simpa using hlast)
      simpa using this
    · exact ⟨c, hc, pre, post, by simp [doubled]⟩

theorem joinPath_append (cs ds : List (List Char)) : joinPath (cs ++ ds) = joinPath cs ++ joinPath ds :=
  List.flatMap_append

/-- The pieces of a path behind its first slash. -/
theorem joinPath_splitOn (t : List Char) : joinPath (t.splitOn '/') = '/' :: t := by
  obtain ⟨d, ds, hd⟩ := List.exists_cons_of_ne_nil (List.splitOn_ne_nil '/' t)
  rw [hd, joinPath_eq_intercalate, ← hd, List.intercalate_splitOn]

theorem slashes_of_nil_mem {t : List Char} (h : [] ∈ t.splitOn '/') : ['/', '/'] <:+: '/' :: t ++ ['/'] := by
  obtain ⟨cs, ds, hsplit⟩ := List.append_of_mem h
  rw [← joinPath_splitOn t, hsplit, joinPath_append]
  refine ⟨joinPath cs, ?_⟩
  cases ds with
  | nil => exact ⟨[], by simp [joinPath]⟩
  | cons d ds => exact ⟨d ++ joinPath ds ++ ['/'], by simp [joinPath]⟩

theorem componentsOk_iff : ∀ {cs : List (List Char)}, [] ∉ cs → componentsOk cs = partsOk cs
  | [], _ => rfl
  | [c], h => by
    have hc : (c != []) = true := by simpa using fun e => h (by simp [e])
    simp [componentsOk, partsOk, pathComponent, pathPart, hc]
  | c :: d :: cs, h => by
    have hc : (c != []) = true := by simpa using fun e => h (by simp [e])
    have ih := componentsOk_iff fun hmem => h (List.mem_cons_of_mem c hmem)
    simp [componentsOk, partsOk, pathComponent, pathPart, hc, ih]

/-! ## Canonical paths -/

namespace AcceptedPath

variable {r : List Char}

/-- Without an empty component behind the first slash, the components are those the check has seen. -/
theorem stringSplit_eq {t : List Char} (h : [] ∉ t.splitOn '/') : stringSplit ('/' :: t) '/' = t.splitOn '/' := by
  cases t with
  | nil => simp at h
  | cons x t =>
    have hx : x ≠ '/' := by
      rintro rfl
      exact h (by simp [List.splitOn_cons_eq_if_modifyHead])
    rw [stringSplit, List.dropWhile_cons_of_pos (by simp), List.dropWhile_cons_of_neg (by simpa using hx)]

/-- The check lets a `#` pass as the last component only. -/
theorem partsOk_cases : ∀ {cs : List (List Char)}, partsOk cs = true →
    (∀ c ∈ cs, pathPart c = true) ∨ ∃ pre, cs = pre ++ [['#']] ∧ ∀ c ∈ pre, pathPart c = true
  | [], _ => .inl (by simp)
  | [c], h => by
    simp only [partsOk, Bool.or_eq_true, beq_iff_eq] at h
    rcases h with rfl | h
    · exact .inr ⟨[], by simp⟩
    · exact .inl (by simpa using h)
  | c :: d :: cs, h => by
    rw [show partsOk (c :: d :: cs) = (pathPart c && partsOk (d :: cs)) from rfl, Bool.and_eq_true] at h
    rcases partsOk_cases h.2 with hall | ⟨pre, hpre, hall⟩
    · exact .inl (List.forall_mem_cons.2 ⟨h.1, hall⟩)
    · exact .inr ⟨c :: pre, by rw [hpre, List.cons_append], List.forall_mem_cons.2 ⟨h.1, hall⟩⟩

theorem pathPart_chars {c : List Char} (h : pathPart c = true) : ∀ x ∈ c, pathChar x = true := by
  simp only [pathPart, Bool.and_eq_true, List.all_eq_true] at h
  exact h.2

theorem joinPath_parts {cs : List (List Char)} (h : ∀ c ∈ cs, pathPart c = true) :
    ∀ x ∈ joinPath cs, x = '/' ∨ pathChar x = true := by
  intro x hx
  obtain ⟨c, hc, hx⟩ := List.mem_flatMap.1 hx
  rcases List.mem_cons.1 hx with rfl | hx
  · exact .inl rfl
  · exact .inr (pathPart_chars (h c hc) x hx)

theorem cons_slashes : ∀ {slashes : List Char} (l : List Char), (∀ x ∈ slashes, x = '/') →
    '/' :: (slashes ++ l) = slashes ++ '/' :: l
  | [], _, _ => rfl
  | x :: slashes, l, h => by
    have hx := h x List.mem_cons_self
    rw [hx, List.cons_append, List.cons_append, cons_slashes l fun y hy => h y (List.mem_cons_of_mem x hy)]

/-- A path is slashes and its components. -/
theorem exists_slashes (h : AcceptedPath r) : ∃ slashes, (∀ x ∈ slashes, x = '/') ∧
    (r = ['/'] ∨ r = slashes ++ joinPath (stringSplit r '/')) := by
  obtain ⟨t, rfl⟩ := h.head
  have hslashes : ∀ x ∈ t.takeWhile (· == '/'), x = '/' := fun x hx => by simpa using List.mem_takeWhile_imp hx
  have hsplit := List.takeWhile_append_dropWhile (p := (· == '/')) (l := t)
  refine ⟨t.takeWhile (· == '/'), hslashes, ?_⟩
  cases hrest : t.dropWhile (· == '/') with
  | nil =>
    refine .inl (h.trimmed.resolve_right fun hlast => hlast ?_)
    rw [hrest, List.append_nil] at hsplit
    rw [hsplit] at hslashes
    have hend := cons_slashes [] hslashes
    rw [List.append_nil] at hend
    rw [hend, List.getLast?_concat]
  | cons x rest =>
    refine .inr ?_
    have hpieces : stringSplit ('/' :: t) '/' = (x :: rest).splitOn '/' := by
      rw [stringSplit, List.dropWhile_cons_of_pos (by simp), hrest]
    rw [hpieces, joinPath_splitOn, ← hrest, ← cons_slashes _ hslashes, hsplit]

/-- Where the `#` of a path can stand. -/
theorem kinds (h : AcceptedPath r) : (∀ x ∈ r, x = '/' ∨ pathChar x = true) ∨
    ∃ base, r = base ++ ['/', '#'] ∧ ∀ x ∈ base, x = '/' ∨ pathChar x = true := by
  obtain ⟨slashes, hslashes, rfl | hr⟩ := h.exists_slashes
  · exact .inl (by simp)
  · rcases partsOk_cases h.parts with hall | ⟨pre, hpre, hall⟩
    · refine .inl fun x hx => ?_
      rw [hr] at hx
      rcases List.mem_append.1 hx with hx | hx
      · exact .inl (hslashes x hx)
      · exact joinPath_parts hall x hx
    · refine .inr ⟨slashes ++ joinPath pre, ?_, fun x hx => ?_⟩
      · rw [hr, hpre, joinPath_append, List.append_assoc]
        rfl
      · rcases List.mem_append.1 hx with hx | hx
        · exact .inl (hslashes x hx)
        · exact joinPath_parts hall x hx

theorem chars (h : AcceptedPath r) : ∀ x ∈ r, x = '/' ∨ componentChar x = true := by
  intro x hx
  rcases h.kinds with hall | ⟨base, rfl, hall⟩
  · exact (hall x hx).imp id fun hp => by simp [componentChar, hp]
  · rcases List.mem_append.1 hx with hx | hx
    · exact (hall x hx).imp id fun hp => by simp [componentChar, hp]
    · rcases List.mem_cons.1 hx with rfl | hx
      · exact .inl rfl
      · rw [List.mem_singleton.1 hx]
        exact .inr (by decide)

theorem nil_mem_of_slashes {t : List Char} (h : ['/', '/'] <:+: '/' :: t) : [] ∈ t.splitOn '/' := by
  obtain ⟨pre, post, h⟩ := h
  have hsplit : ('/' :: t).splitOn '/' = pre.splitOn '/' ++ [] :: post.splitOn '/' := by
    rw [← h, List.append_assoc, List.cons_append, List.cons_append, List.nil_append, List.splitOn_append_cons_self]
    simp [List.splitOn_cons_eq_if_modifyHead]
  obtain ⟨d, ds, hd⟩ := List.exists_cons_of_ne_nil (List.splitOn_ne_nil '/' pre)
  have hfirst : ('/' :: t).splitOn '/' = [] :: t.splitOn '/' := by simp [List.splitOn_cons_eq_if_modifyHead]
  rw [hfirst, hd, List.cons_append] at hsplit
  rw [(List.cons.inj hsplit).2]
  simp

theorem canonical_iff (h : AcceptedPath r) :
    CanonicalPath (String.ofList r) ↔ ∀ c, componentChar c = true → ¬ doubled c <:+: r := by
  obtain ⟨t, rfl⟩ := h.head
  constructor
  · rintro ⟨p, hp⟩ c - hin
    rw [String.toList_ofList] at hp
    have hslashes : ['/', '/'] <:+: '/' :: t := List.IsInfix.trans ⟨[], [c], rfl⟩ hin
    have hnil := nil_mem_of_slashes hslashes
    unfold ServicePath.chars at hp
    split at hp
    · have := hslashes.length_le
      rw [hp] at this
      simp at this
    · rename_i hne
      obtain ⟨d, ds, hd⟩ := List.exists_cons_of_ne_nil hne
      have hfacts := p.facts
      rw [hd] at hfacts
      rw [hd, joinPath_eq_intercalate] at hp
      rw [(List.cons.inj hp).2, List.splitOn_intercalate '/' (fun l hl => slash_not_mem (hfacts l hl).plain) (by simp)] at hnil
      exact (hfacts [] hnil).ne rfl
  · intro hno
    by_cases ht : t = []
    · subst ht
      exact ⟨⟨[], by simp, rfl⟩, by rw [String.toList_ofList]; rfl⟩
    · have hlast : ('/' :: t).getLast? ≠ some '/' := h.trimmed.resolve_left fun e => ht (List.cons.inj e).2
      have hnil : [] ∉ t.splitOn '/' := by
        intro hmem
        have hslashes : ['/', '/'] <:+: '/' :: t := by
          rcases List.infix_concat_iff.1 (slashes_of_nil_mem hmem) with hsuf | hin
          · obtain ⟨pre, hpre⟩ := hsuf
            have hend : '/' :: t = pre ++ ['/'] :=
              List.append_cancel_right (show '/' :: t ++ ['/'] = pre ++ ['/'] ++ ['/'] by simpa using hpre.symm)
            exact absurd (by rw [hend, List.getLast?_concat]) hlast
          · exact hin
        obtain ⟨c, hc, hin⟩ := doubled_of_slashes hslashes hlast
        refine hno c ((h.chars c ?_).resolve_left hc) hin
        exact hin.subset (by simp [doubled])
      have hparts := h.parts
      have hlevels := h.levels
      rw [stringSplit_eq hnil] at hparts hlevels
      refine ⟨⟨t.splitOn '/', hlevels, (componentsOk_iff hnil).trans hparts⟩, ?_⟩
      rw [String.toList_ofList, ServicePath.chars, if_neg (List.splitOn_ne_nil '/' t), joinPath_splitOn]

end AcceptedPath

/-- The value of the header has two slashes with a letter, a digit, `_` or `#` behind them. -/
def DoubledSlash (header : String) : Prop := ∃ c, componentChar c = true ∧ doubled c <:+: cStr header

theorem mem_servicePathV {header : String} {v : List String} (h : servicePathSplit true header = .ok v) {s : String} :
    s ∈ v ↔ s.toList ∈ trimmedPaths header := by
  rw [(servicePathSplit_eq h).1, List.mem_map]
  constructor
  · rintro ⟨r, hr, rfl⟩
    rwa [String.toList_ofList]
  · exact fun hr => ⟨s.toList, hr, String.ofList_toList⟩

theorem accepted_of_mem {header : String} {v : List String} (h : servicePathSplit true header = .ok v) {s : String}
    (hs : s ∈ v) : AcceptedPath s.toList :=
  (servicePathSplit_eq h).2 _ ((mem_servicePathV h).1 hs)

theorem all_canonical_iff {header : String} {v : List String} (h : servicePathSplit true header = .ok v) :
    (∀ s ∈ v, CanonicalPath s) ↔ ¬ DoubledSlash header := by
  constructor
  · rintro hall ⟨c, hc, hin⟩
    obtain ⟨r, hr, hin⟩ := (doubled_trimmed hc header).1 hin
    have hmem : String.ofList r ∈ v := (mem_servicePathV h).2 (by rwa [String.toList_ofList])
    exact ((servicePathSplit_eq h).2 r hr).canonical_iff.1 (hall _ hmem) c hc hin
  · intro hno s hs
    have hcanonical := (accepted_of_mem h hs).canonical_iff.2 fun c hc hin =>
      hno ⟨c, hc, (doubled_trimmed hc header).2 ⟨_, (mem_servicePathV h).1 hs, hin⟩⟩
    rwa [String.ofList_toList] at hcanonical

theorem canonical_eq_of_components {s s' : String} (h : CanonicalPath s) (h' : CanonicalPath s')
    (hsplit : stringSplit s.toList '/' = stringSplit s'.toList '/') : s = s' := by
  obtain ⟨p, hp⟩ := h
  obtain ⟨p', hp'⟩ := h'
  rw [hp, hp', stringSplit_chars, stringSplit_chars] at hsplit
  rw [← String.toList_inj, hp, hp', ServicePath.chars, ServicePath.chars, hsplit]

/-- **What is accepted is canonical**, and the text of a path is determined by its components, exactly when the value
of the header has no doubled slash. -/
theorem servicePathSplit_canonical_iff {header : String} {v : List String} (h : servicePathSplit true header = .ok v) :
    ((∀ s ∈ v, CanonicalPath s) ↔ ¬ DoubledSlash header) ∧
    ∀ header' v', servicePathSplit true header' = .ok v' → ¬ DoubledSlash header → ¬ DoubledSlash header' →
      ∀ s ∈ v, ∀ s' ∈ v', stringSplit s.toList '/' = stringSplit s'.toList '/' → s = s' := by
  refine ⟨all_canonical_iff h, fun header' v' h' hno hno' s hs s' hs' hsplit => ?_⟩
  exact canonical_eq_of_components ((all_canonical_iff h).2 hno s hs) ((all_canonical_iff h').2 hno' s' hs') hsplit

/-- Two texts for the path `/Madrid/Gardens`. -/
theorem gardens_twice :
    servicePathSplit true "/Madrid/Gardens, //Madrid/Gardens, /Madrid//Gardens" =
      .ok ["/Madrid/Gardens", "//Madrid/Gardens", "/Madrid//Gardens"] ∧
    ¬ CanonicalPath "//Madrid/Gardens" ∧
    stringSplit "//Madrid/Gardens".toList '/' = stringSplit "/Madrid/Gardens".toList '/' := by
  have hok : servicePathSplit true "/Madrid/Gardens, //Madrid/Gardens, /Madrid//Gardens" =
      .ok ["/Madrid/Gardens", "//Madrid/Gardens", "/Madrid//Gardens"] := by decide
  refine ⟨hok, fun hcanonical => ?_, by decide⟩
  have haccepted : AcceptedPath "//Madrid/Gardens".toList := accepted_of_mem hok (by simp)
  rw [← String.ofList_toList (s := "//Madrid/Gardens")] at hcanonical
  exact haccepted.canonical_iff.1 hcanonical 'M' (by decide) ⟨[], "adrid/Gardens".toList, rfl⟩

theorem gardens_canonical :
    servicePathSplit true " /Madrid/Gardens// ,/" = .ok ["/Madrid/Gardens", "/"] ∧
    CanonicalPath "/Madrid/Gardens" := by
  have hok : servicePathSplit true " /Madrid/Gardens// ,/" = .ok ["/Madrid/Gardens", "/"] := by decide
  refine ⟨hok, (servicePathSplit_canonical_iff hok).1.2 ?_ _ (by simp)⟩
  rintro ⟨c, hc, hin⟩
  obtain ⟨r, hr, hin⟩ := (doubled_trimmed hc _).1 hin
  have hnone : ∀ r ∈ trimmedPaths " /Madrid/Gardens// ,/", ¬ ['/', '/'] <:+: r := by decide
  exact hnone r hr (List.IsInfix.trans ⟨[], [c], rfl⟩ hin)

end OrionBroker
