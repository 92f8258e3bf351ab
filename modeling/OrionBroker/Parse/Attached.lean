import OrionBroker.Lib.Replay
import OrionBroker.Parse.UpdateContext

/-!
# Where compound values go

`compoundValueEnd` follows `compoundValueRoot` and, except for an updateContextAttributeRequest,
`lastContextAttribute` (compoundValue.cpp:145, :175). Whether both are set is decided by the payload: what
counts as a compound value is told by its path alone, whatever the request type, and an XML node with a bad
`type` makes no root. `compound_attached_iff` says exactly which payloads are safe. For that the walk of
either parser is flattened to its events: the treat functions it calls, the compound values it ends, and
where it gives up.
-/

namespace OrionBroker

open Replay

variable {S D : Type}

/-! ## Events -/

/-- The pointers of a `ParseData`, by whether they are set, and what the treat functions have filled. -/
structure Pointers (D : Type) where
  attributeP : Bool
  lastContextAttribute : Bool
  rest : D

def ParseData.pointers (d : ParseData D) : Pointers D :=
  { attributeP := d.attributeP.isSome, lastContextAttribute := d.lastContextAttribute.isSome, rest := d.rest }

/-- A treat function on the pointers; `none` at a null pointer. -/
def ParseNode.call (node : ParseNode S D) (source : S) (p : Pointers D) : Option (Pointers D) :=
  (node.fill source p.rest).bind fun rest =>
    match node.use with
    | .none => some { p with rest := rest }
    | .creates => some { p with attributeP := true, rest := rest }
    | .follows => if p.attributeP then some { p with rest := rest } else none
    | .opens => if p.attributeP then some { p with lastContextAttribute := true, rest := rest } else none
    | .upcar => some { p with lastContextAttribute := true, rest := rest }

inductive ParseEvent (S D : Type) where
  /-- A treat function is called. -/
  | treat (node : ParseNode S D) (source : S)
  /-- `compoundValueEnd` is called, with or without a root. -/
  | compound (rooted : Bool)
  /-- `jsonParse` returns an error. -/
  | rejects (answer : String)
  | throws (what : String)

namespace ParseEvent

/-- The treat function called sets `lastContextAttribute`. -/
def opens : ParseEvent S D → Bool
  | treat node _ => node.use == .opens || node.use == .upcar
  | _ => false

/-- The walk comes past the event, as far as the treat functions are concerned. -/
def pass : ParseEvent S D → Pointers D → Option (Pointers D)
  | treat node source, p => node.call source p
  | compound _, p => some p
  | rejects _, _ => none
  | throws _, _ => none

def step (payloadWord : String) (p : Pointers D) : ParseEvent S D → Except Stop (Pointers D)
  | treat node source => (node.call source p).elim (.error .treatFunction) .ok
  | compound rooted =>
    if rooted then
      if payloadWord = "updateContextAttributeRequest" ∨ p.lastContextAttribute then .ok p
      else .error .nullAttribute
    else .error .nullRoot
  | rejects answer => .error (.rejected answer)
  | throws what => .error (.logicError what)

end ParseEvent

/-- Every compound value the walk comes to has a root, and the payload is an updateContextAttributeRequest or
a treat function called before has set `lastContextAttribute`. -/
def Guarded (payloadWord : String) (p : Pointers D) (events : List (ParseEvent S D)) : Prop :=
  ∀ pre rooted post, events = pre ++ .compound rooted :: post → run ParseEvent.pass pre p ≠ none →
    rooted = true ∧ (payloadWord = "updateContextAttributeRequest" ∨
      p.lastContextAttribute = true ∨ ∃ e ∈ pre, e.opens = true)

/-- The result of a parse that did not follow a null pointer in `compoundValueEnd`. -/
def Attached {σ : Type} (result : Except Stop σ) : Prop :=
  result ≠ .error .nullRoot ∧ result ≠ .error .nullAttribute

instance {σ : Type} : (result : Except Stop σ) → Decidable (Attached result)
  | .ok _ => .isTrue ⟨nofun, nofun⟩
  | .error stop => decidable_of_iff (stop ≠ .nullRoot ∧ stop ≠ .nullAttribute) (by simp [Attached])

theorem Attached.ok {σ : Type} (s : σ) : Attached (.ok s) := ⟨nofun, nofun⟩

theorem call_last {node : ParseNode S D} {source : S} {p p' : Pointers D} (h : node.call source p = some p') :
    p'.lastContextAttribute = (p.lastContextAttribute || (node.use == .opens || node.use == .upcar)) := by
  obtain ⟨rest, -, h⟩ := Option.bind_eq_some_iff.1 h
  cases hu : node.use with
  | none | creates | upcar =>
    simp only [hu] at h
    cases h
    simp
  | follows | opens =>
    simp only [hu] at h
    split at h
    · cases h
      simp
    · cases h

/-- `lastContextAttribute` is set by the events that open, and stays set. -/
theorem pass_last {e : ParseEvent S D} {p p' : Pointers D} (h : e.pass p = some p') :
    p'.lastContextAttribute = true ↔ p.lastContextAttribute = true ∨ e.opens = true := by
  cases e with
  | treat node source => rw [call_last h, Bool.or_eq_true]; rfl
  | compound rooted => cases h; simp [ParseEvent.opens]
  | rejects answer => cases h
  | throws what => cases h

/-- What an event asks for, and what the events after it start from. -/
theorem guarded_cons {w : String} {p : Pointers D} {e : ParseEvent S D} {events : List (ParseEvent S D)} :
    Guarded w p (e :: events) ↔
      (∀ rooted, e = .compound rooted → rooted = true ∧
        (w = "updateContextAttributeRequest" ∨ p.lastContextAttribute = true)) ∧
      ∀ p', e.pass p = some p' → Guarded w p' events := by
  constructor
  · intro h
    refine ⟨fun rooted he => ?_, fun p' hp' pre rooted post hev hrun => ?_⟩
    · have := h [] rooted events (by rw [he]; rfl) (by simp)
      simpa using this
    · have hrun' : run ParseEvent.pass (e :: pre) p ≠ none := by rw [run_cons, hp']; exact hrun
      have := h (e :: pre) rooted post (by rw [hev]; rfl) hrun'
      rw [pass_last hp']
      simpa [or_assoc] using this
  · rintro ⟨hhead, htail⟩ pre rooted post hev hrun
    cases pre with
    | nil =>
      cases hev
      have := hhead rooted rfl
      exact ⟨this.1, this.2.imp_right .inl⟩
    | cons e' pre =>
      cases hev
      obtain ⟨p', hp'⟩ : ∃ p', e.pass p = some p' := by
        refine Option.ne_none_iff_exists'.1 fun hn => hrun ?_
        rw [run_cons, hn]
        rfl
      have := htail p' hp' pre rooted post rfl (by rwa [run_cons, hp'] at hrun)
      rw [pass_last hp'] at this
      simpa [or_assoc] using this

theorem attached_iff (w : String) (events : List (ParseEvent S D)) (p : Pointers D) :
    Attached (events.foldlM (ParseEvent.step w) p) ↔ Guarded w p events := by
  induction events generalizing p with
  | nil =>
    refine ⟨fun _ pre rooted post hev => ?_, fun _ => Attached.ok p⟩
    simp at hev
  | cons e events ih =>
    rw [List.foldlM_cons, guarded_cons]
    cases e with
    | treat node source =>
      cases hc : node.call source p with
      | none => simp [ParseEvent.step, ParseEvent.pass, hc, Attached, bind, Except.bind]
      | some p' => simp [ParseEvent.step, ParseEvent.pass, hc, ← ih, bind, Except.bind]
    | compound rooted =>
      by_cases hr : rooted = true ∧ (w = "updateContextAttributeRequest" ∨ p.lastContextAttribute = true)
      · simp [ParseEvent.step, ParseEvent.pass, hr, ← ih, bind, Except.bind]
      · refine ⟨fun h => absurd h ?_, fun h => absurd (h.1 rooted rfl) hr⟩
        cases rooted with
        | false => simp [ParseEvent.step, Attached, bind, Except.bind]
        | true =>
          have hlast : ¬(w = "updateContextAttributeRequest" ∨ p.lastContextAttribute = true) :=
            fun hl => hr ⟨rfl, hl⟩
          simp [ParseEvent.step, hlast, Attached, bind, Except.bind]
    | rejects answer => simp [ParseEvent.step, ParseEvent.pass, Attached, bind, Except.bind]
    | throws what => simp [ParseEvent.step, ParseEvent.pass, Attached, bind, Except.bind]

/-! ## Treat functions and `compoundValueEnd` -/

theorem treat_tracks (node : ParseNode S D) (source : S) (d : ParseData D) :
    Tracks (fun (d' : ParseData D) p' => d'.pointers = p') (node.treat source d)
      ((node.call source d.pointers).elim (.error .treatFunction) .ok) := by
  unfold ParseNode.treat ParseNode.call
  cases hf : node.fill source d.rest with
  | none => simpa [ParseData.pointers, hf] using .error _
  | some rest =>
    have hr : node.fill source d.pointers.rest = some rest := hf
    have hset (b : Bool) (h : d.attributeP.isSome = b) : d.pointers.attributeP = b := h
    rw [hr, Option.bind_some]
    dsimp only
    split
    · next hu => rw [hu]; exact .ok rfl
    · next hu => rw [hu]; exact .ok rfl
    · next hu ha => rw [hu, hset false (by simp [ha])]; exact .error _
    · next hu ha => rw [hu, hset true (by simp [ha])]; exact .ok (by simp [ParseData.pointers, ha])
    · next hu ha => rw [hu, hset false (by simp [ha])]; exact .error _
    · next hu ha => rw [hu, hset true (by simp [ha])]; exact .ok (by simp [ParseData.pointers, ha])
    · next hu => rw [hu]; exact .ok rfl

theorem attach_none {root : CompoundValueNode} {d : ParseData D}
    (h : d.pointers.lastContextAttribute = false) : d.attach root = none := by
  have hl : d.lastContextAttribute = none := by simpa [ParseData.pointers] using h
  simp only [ParseData.attach, hl]

theorem attach_some (root : CompoundValueNode) {d : ParseData D}
    (h : d.pointers.lastContextAttribute = true) :
    ∃ d', d.attach root = some d' ∧ d'.pointers = d.pointers := by
  unfold ParseData.attach
  split
  · next hl => simp [ParseData.pointers, hl] at h
  · exact ⟨_, rfl, rfl⟩
  · exact ⟨_, rfl, rfl⟩

theorem compoundValueEnd_tracks (s : ParseState D) :
    Tracks (fun (s' : ParseState D) p' => ∃ root, s.ciP.compoundValueRoot = some root ∧
        s'.ciP = s.ciP.finished root ∧ s'.parseDataP.pointers = p')
      (compoundValueEnd s)
      (ParseEvent.step s.ciP.payloadWord s.parseDataP.pointers
        (.compound s.ciP.compoundValueRoot.isSome : ParseEvent S D)) := by
  unfold compoundValueEnd
  cases hroot : s.ciP.compoundValueRoot with
  | none => exact .error _
  | some root =>
    by_cases hw : s.ciP.payloadWord = "updateContextAttributeRequest"
    · simpa [ParseEvent.step, hw] using .ok ⟨rfl, rfl⟩
    · cases hl : s.parseDataP.pointers.lastContextAttribute with
      | false => simpa [ParseEvent.step, hw, hl, attach_none hl] using .error _
      | true =>
        obtain ⟨d', hd', hp⟩ := attach_some root hl
        simpa [ParseEvent.step, hw, hl, hd'] using .ok ⟨rfl, hp⟩

/-! ## JSON -/

namespace Json

/-- The entry whose treat function is called. -/
def entry (path value : String) (parseVector : List (ParseNode (String × String) D)) :
    Option (ParseNode (String × String) D) :=
  if forbiddenChars value then none else parseVector.find? (·.path == path)

/-- The `ConnectionInfo` as `treat` leaves it. -/
def treatInfo (value : String) (parseVector : List (ParseNode (String × String) D)) (ciP : ConnectionInfo) :
    ConnectionInfo :=
  if forbiddenChars value && !parseVector.isEmpty then ciP.bad "Illegal value for JSON field" else ciP

/-- The answer to a compound value with an error in it. -/
def compoundAnswer (children : List (String × PropertyTree)) : Option String :=
  if (eatToplevel children).1.finish = "OK" then (eatToplevel children).2
  else some ("compound value error: " ++ (eatToplevel children).1.finish)

mutual
def events (parseVector : List (ParseNode (String × String) D)) (path nodeName : String) :
    PropertyTree → List (ParseEvent (String × String) D)
  | .node nodeValue children =>
    match nodePath path nodeName with
    | .error what => [.throws what]
    | .ok path =>
      ((entry path nodeValue parseVector).map (.treat · (path, nodeValue))).toList ++
      if isCompound path nodeValue children then .compound true :: (compoundAnswer children).toList.map .rejects
      else if (entry path nodeValue parseVector).isSome then childEvents parseVector path children
      else [.rejects (unknownField path (treatInfo nodeValue parseVector { payloadWord := "" }).answer)]
def childEvents (parseVector : List (ParseNode (String × String) D)) (path : String) :
    List (String × PropertyTree) → List (ParseEvent (String × String) D)
  | [] => []
  | (name, tree) :: children => events parseVector path (cString name) tree ++ childEvents parseVector path children
end

/-- Nothing has gone wrong so far: `jsonParse` goes on in no other state. -/
def Clean (w : String) (s : ParseState D) (p : Pointers D) : Prop :=
  s.ciP = { payloadWord := w } ∧ s.parseDataP.pointers = p

theorem forbiddenChars_of_entry {path value : String} {parseVector : List (ParseNode (String × String) D)}
    (h : (entry path value parseVector).isSome = true) : forbiddenChars value = false := by
  cases hf : forbiddenChars value with
  | false => rfl
  | true => simp [entry, hf] at h

theorem treatInfo_eq {value : String} (parseVector : List (ParseNode (String × String) D)) (ciP : ConnectionInfo)
    (h : forbiddenChars value = false) : treatInfo value parseVector ciP = ciP := by
  simp [treatInfo, h]

theorem treat_eq (path value : String) (parseVector : List (ParseNode (String × String) D)) (s : ParseState D) :
    treat path value parseVector s =
      match entry path value parseVector with
      | some node => do
        let d ← node.treat (path, value) s.parseDataP
        return (true, { s with parseDataP := d })
      | none => .ok (false, { s with ciP := treatInfo value parseVector s.ciP }) := by
  cases hf : forbiddenChars value with
  | true =>
    cases parseVector with
    | nil => simp [treat, entry, treatInfo, hf]
    | cons node parseVector => simp [treat, entry, treatInfo, hf]
  | false =>
    induction parseVector with
    | nil => simp [treat, entry, treatInfo]
    | cons node parseVector ih =>
      by_cases hp : path = node.path
      · simp [treat, entry, hf, ← hp]
      · simpa [treat, entry, hf, hp, Ne.symm hp, treatInfo] using ih

theorem treatEvents_track (w path value : String) (parseVector : List (ParseNode (String × String) D))
    {s : ParseState D} {p : Pointers D} (h : Clean w s p) :
    Tracks (fun (r : Bool × ParseState D) p' => r.1 = (entry path value parseVector).isSome ∧
        r.2.ciP = treatInfo value parseVector { payloadWord := w } ∧ r.2.parseDataP.pointers = p')
      (treat path value parseVector s)
      (((entry path value parseVector).map (.treat · (path, value))).toList.foldlM (ParseEvent.step w) p) := by
  obtain ⟨hci, rfl⟩ := h
  rw [treat_eq]
  cases he : entry path value parseVector with
  | none => exact .ok ⟨rfl, by rw [hci], rfl⟩
  | some node =>
    have hf : forbiddenChars value = false := forbiddenChars_of_entry (by rw [he]; rfl)
    refine (treat_tracks node (path, value) s.parseDataP).bind fun d p' hp' => ?_
    exact .ok ⟨rfl, by rw [treatInfo_eq _ _ hf]; exact hci, hp'⟩

/-- The end of a compound value, and the error return after it. -/
theorem compoundEvents_track (w : String) (children : List (String × PropertyTree)) {s : ParseState D}
    {p : Pointers D} (h : Clean w s p) :
    Tracks (Clean w)
      (do
        let s ← compoundValueEnd
          { s with ciP := s.ciP.eaten (some (eatToplevel children).1) (eatToplevel children).2 }
        if s.ciP.httpStatusCode = .ok then .ok s else .error (.rejected s.ciP.answer))
      ((ParseEvent.compound true :: (compoundAnswer children).toList.map .rejects :
        List (ParseEvent (String × String) D)).foldlM (ParseEvent.step w) p) := by
  obtain ⟨hci, rfl⟩ := h
  rw [List.foldlM_cons, compoundAnswer]
  generalize eatToplevel children = eaten
  obtain ⟨root, error⟩ := eaten
  have hend := compoundValueEnd_tracks (S := String × String) { s with ciP := s.ciP.eaten (some root) error }
  rw [ConnectionInfo.eaten_payloadWord, hci] at hend
  rw [hci]
  refine hend.bind ?_
  rintro s' p' ⟨root', hroot, hci', hp'⟩
  cases hroot
  rw [ConnectionInfo.finished] at hci'
  by_cases hfin : root.finish = "OK"
  · rw [if_pos hfin] at hci' ⊢
    cases error with
    | none =>
      rw [hci']
      exact .ok ⟨hci', hp'⟩
    | some answer =>
      rw [hci']
      exact .error _
  · rw [if_neg hfin] at hci' ⊢
    rw [hci']
    exact .error _

mutual
theorem jsonParse_tracks (w : String) (parseVector : List (ParseNode (String × String) D)) :
    ∀ (tree : PropertyTree) (path nodeName : String) (s : ParseState D) (p : Pointers D), Clean w s p →
      Tracks (Clean w) (jsonParse parseVector path nodeName tree s)
        ((events parseVector path nodeName tree).foldlM (ParseEvent.step w) p)
  | .node nodeValue children, path, nodeName, s, p, h => by
    rw [jsonParse, events]
    cases nodePath path nodeName with
    | error what => exact .error _
    | ok path =>
      rw [List.foldlM_append]
      refine (treatEvents_track w path nodeValue parseVector h).bind ?_
      rintro ⟨treated, s⟩ p ⟨rfl, hci, rfl⟩
      dsimp only at hci ⊢
      by_cases hc : isCompound path nodeValue children = true
      · rw [if_pos hc, if_pos hc]
        have hv : nodeValue = "" := by
          simp only [isCompound, Bool.and_eq_true, beq_iff_eq] at hc
          exact hc.1.2
        rw [treatInfo_eq _ _ (by rw [hv]; decide)] at hci
        exact compoundEvents_track w children ⟨hci, rfl⟩
      · rw [if_neg hc, if_neg hc]
        by_cases ht : (entry path nodeValue parseVector).isSome = true
        · rw [if_pos ht, if_pos ht]
          rw [treatInfo_eq _ _ (forbiddenChars_of_entry ht)] at hci
          exact jsonParseChildren_tracks w parseVector children path s _ ⟨hci, rfl⟩
        · rw [if_neg ht, if_neg ht, hci]
          have hanswer : (treatInfo nodeValue parseVector { payloadWord := w }).answer =
              (treatInfo nodeValue parseVector { payloadWord := "" }).answer := by
            unfold treatInfo
            split <;> rfl
          rw [hanswer]
          exact .error _
theorem jsonParseChildren_tracks (w : String) (parseVector : List (ParseNode (String × String) D)) :
    ∀ (children : List (String × PropertyTree)) (path : String) (s : ParseState D) (p : Pointers D),
      Clean w s p →
      Tracks (Clean w) (jsonParseChildren parseVector path children s)
        ((childEvents parseVector path children).foldlM (ParseEvent.step w) p)
  | [], _, _, _, h => .ok h
  | (name, tree) :: children, path, s, p, h => by
    rw [jsonParseChildren, childEvents, List.foldlM_append]
    refine (jsonParse_tracks w parseVector tree path (cString name) s p h).bind fun s' p' h' => ?_
    exact jsonParseChildren_tracks w parseVector children path s' p' h'
end

def treeEvents (parseVector : List (ParseNode (String × String) D)) :
    PropertyTree → List (ParseEvent (String × String) D)
  | .node _ children => childEvents parseVector "" children

end Json

/-! ## XML -/

namespace Xml

mutual
def events (parseVector : List (ParseNode XmlTree D)) (fatherPath : String) : XmlTree → List (ParseEvent XmlTree D)
  | .node nodeName nodeValue attributes children =>
    let node := stripped (.node nodeName nodeValue attributes children)
    let path := fatherPath ++ "/" ++ strip nodeName
    let entry := parseVector.find? (·.path == path)
    (if isIllegal node then [] else (entry.map (.treat · node)).toList) ++
    if isEmptyValue path nodeValue children then
      if children.any isNamed then [.compound (containerType (xmlTypeAttributeGet attributes)).isSome] else []
    else if entry.isSome then childEvents parseVector path children
    else []
def childEvents (parseVector : List (ParseNode XmlTree D)) (path : String) :
    List XmlTree → List (ParseEvent XmlTree D)
  | [] => []
  | child :: children =>
    if onlyWs child.name then childEvents parseVector path children
    else events parseVector path child ++ childEvents parseVector path children
end

/-- No compound value is being built. -/
def Rootless (w : String) (s : ParseState D) (p : Pointers D) : Prop :=
  s.ciP.payloadWord = w ∧ s.ciP.compoundValueRoot = none ∧ s.parseDataP.pointers = p

theorem treat_eq (node : XmlTree) (path : String) (parseVector : List (ParseNode XmlTree D)) (s : ParseState D) :
    treat node path parseVector s =
      match parseVector.find? (·.path == path) with
      | none => .ok (false, s)
      | some entry =>
        if isIllegal node then .ok (true, { s with ciP := s.ciP.bad "Illegal value for XML attribute" })
        else do
          let d ← entry.treat node s.parseDataP
          return (true, { s with parseDataP := d }) := by
  induction parseVector with
  | nil => rfl
  | cons entry parseVector ih =>
    by_cases hp : path = entry.path
    · simp [treat, ← hp]
    · simpa [treat, hp, Ne.symm hp] using ih

theorem treatEvents_track {w : String} (node : XmlTree) (path : String) (parseVector : List (ParseNode XmlTree D))
    {s : ParseState D} {p : Pointers D} (h : Rootless w s p) :
    Tracks (fun (r : Bool × ParseState D) p' => r.1 = (parseVector.find? (·.path == path)).isSome ∧
        Rootless w r.2 p')
      (treat node path parseVector s)
      ((if isIllegal node then [] else
        ((parseVector.find? (·.path == path)).map (.treat · node)).toList).foldlM (ParseEvent.step w) p) := by
  obtain ⟨hw, hroot, rfl⟩ := h
  rw [treat_eq]
  cases parseVector.find? (·.path == path) with
  | none =>
    rw [Option.map_none, Option.toList_none, ite_self]
    exact .ok ⟨rfl, hw, hroot, rfl⟩
  | some entry =>
    by_cases hi : isIllegal node = true
    · simp only [hi, if_true]
      exact .ok ⟨rfl, hw, hroot, rfl⟩
    · simp only [hi]
      refine (treat_tracks entry node s.parseDataP).bind fun d p' hp' => ?_
      exact .ok ⟨rfl, hw, hroot, hp'⟩

theorem eatToplevel_isSome (name value : String) (attributes : List (String × String)) (children : List XmlTree) :
    (eatToplevel (.node name value attributes children)).1.isSome =
      (containerType (xmlTypeAttributeGet attributes)).isSome := by
  rw [eatToplevel]
  cases containerType (xmlTypeAttributeGet attributes) with
  | none => rfl
  | some type => rfl

theorem compoundEvent_tracks {w : String} (root : Option CompoundValueNode) (error : Option String)
    {s : ParseState D} {p : Pointers D} (h : Rootless w s p) :
    Tracks (Rootless w) (compoundValueEnd { s with ciP := s.ciP.eaten root error })
      (([.compound root.isSome] : List (ParseEvent XmlTree D)).foldlM (ParseEvent.step w) p) := by
  obtain ⟨hw, hroot, rfl⟩ := h
  have hend := compoundValueEnd_tracks (S := XmlTree) { s with ciP := s.ciP.eaten root error }
  rw [ConnectionInfo.eaten_payloadWord, ConnectionInfo.eaten_compoundValueRoot, hw, hroot, Option.or_none] at hend
  simp only [List.foldlM_cons, List.foldlM_nil, bind_pure]
  refine hend.mono ?_
  rintro s' p' ⟨root, -, hci, hp⟩
  exact ⟨by simpa [hci] using hw, by rw [hci]; rfl, hp⟩

mutual
theorem xmlParse_tracks (w : String) (parseVector : List (ParseNode XmlTree D)) :
    ∀ (tree : XmlTree) (fatherPath : String) (s : ParseState D) (p : Pointers D), Rootless w s p →
      Tracks (Rootless w) (xmlParse parseVector fatherPath tree s)
        ((events parseVector fatherPath tree).foldlM (ParseEvent.step w) p)
  | .node nodeName nodeValue attributes children, fatherPath, s, p, h => by
    rw [xmlParse, events, List.foldlM_append]
    refine (treatEvents_track _ _ parseVector h).bind ?_
    rintro ⟨treated, s⟩ p ⟨rfl, h⟩
    dsimp only at h ⊢
    split
    · split
      · have hroot := eatToplevel_isSome (stripEnd nodeName) (stripEnd nodeValue) attributes children
        rw [← hroot]
        exact compoundEvent_tracks _ _ h
      · exact .ok h
    · split
      · exact xmlParseChildren_tracks w parseVector children _ s p h
      · exact .ok h
theorem xmlParseChildren_tracks (w : String) (parseVector : List (ParseNode XmlTree D)) :
    ∀ (children : List XmlTree) (path : String) (s : ParseState D) (p : Pointers D), Rootless w s p →
      Tracks (Rootless w) (xmlParseChildren parseVector path children s)
        ((childEvents parseVector path children).foldlM (ParseEvent.step w) p)
  | [], _, _, _, h => .ok h
  | child :: children, path, s, p, h => by
    rw [xmlParseChildren, childEvents]
    by_cases hws : onlyWs child.name = true
    · rw [if_pos hws, if_pos hws]
      exact xmlParseChildren_tracks w parseVector children path s p h
    · rw [if_neg hws, if_neg hws, List.foldlM_append]
      refine (xmlParse_tracks w parseVector child path s p h).bind fun s' p' h' => ?_
      exact xmlParseChildren_tracks w parseVector children path s' p' h'
end

end Xml

/-! ## Safe payloads -/

theorem tracks_attached {σ : Type} {R : σ → Pointers D → Prop} {result : Except Stop σ}
    {walked : Except Stop (Pointers D)} (h : Tracks R result walked) : Attached result ↔ Attached walked := by
  simp only [Attached, ne_eq, h.error_iff]

/-- A fresh `ConnectionInfo` and a `ParseData` with both attribute pointers null. -/
def ParseState.start (payloadWord : String) (rest : D) : ParseState D :=
  { ciP := { payloadWord := payloadWord }, parseDataP := { rest := rest } }

/-- Either parser, with any parse vector and on any tree, follows no null pointer in `compoundValueEnd`
exactly when the payload is guarded. -/
theorem compound_attached_iff (payloadWord : String) (rest : D)
    (jsonVector : List (ParseNode (String × String) D)) (tree : PropertyTree)
    (xmlVector : List (ParseNode XmlTree D)) (node : XmlTree) :
    (Attached (Json.jsonParseTree jsonVector tree (.start payloadWord rest)) ↔
      Guarded payloadWord { attributeP := false, lastContextAttribute := false, rest := rest }
        (Json.treeEvents jsonVector tree)) ∧
    (Attached (Xml.xmlParse xmlVector "" node (.start payloadWord rest)) ↔
      Guarded payloadWord { attributeP := false, lastContextAttribute := false, rest := rest }
        (Xml.events xmlVector "" node)) := by
  refine ⟨?_, ?_⟩
  · obtain ⟨data, children⟩ := tree
    rw [← attached_iff]
    apply tracks_attached
    exact Json.jsonParseChildren_tracks payloadWord jsonVector children "" _ _ ⟨rfl, rfl⟩
  · rw [← attached_iff]
    apply tracks_attached
    exact Xml.xmlParse_tracks payloadWord xmlVector node "" _ _ ⟨rfl, rfl, rfl⟩

/-- `{"value": {"a": "b"}}`, a compound value outside of any attribute. -/
def strayValue : PropertyTree := .node "" [("value", .node "" [("a", .node "b" [])])]

/-- An update of one attribute, whose `contextValue` has the given XML attributes and one member. -/
def xmlUpdate (attributes : List (String × String)) : XmlTree :=
  .node "updateContextRequest" "" [] [.node "contextElementList" "" [] [.node "contextElement" "" []
    [.node "contextAttributeList" "" [] [.node "contextAttribute" "" []
      [.node "contextValue" "" attributes [.node "a" "b" [] []]]]]]]

set_option maxRecDepth 4000 in
/-- Both pointers can be null: no attribute has been opened, or `type="x"` makes no root. -/
theorem strayValue_detached :
    ¬Attached (Json.jsonParseTree jsonUpcrParseVector strayValue (.start "updateContextRequest" [])) ∧
    ¬Attached (Xml.xmlParse upcrParseVector "" (xmlUpdate [("type", "x")]) (.start "updateContextRequest" [])) := by
  decide +kernel

end OrionBroker
