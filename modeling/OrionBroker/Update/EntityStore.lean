import OrionBroker.Update.Contents
import OrionBroker.Update.NotifyContext
import OrionBroker.Update.Sure

/-!
# An entity as a store

What the broker is for, from the side of a client that reads and writes one entity: the entity is absent or has
contents (`storeElement`), a query shows them, and requests about other entities do not touch them (`serveStore`).
`store_refined`: as long as no database call fails, `mongoUpdateContext` and `entitiesQuery` answer every list of
requests like this store. An update is taken (every response about the entity has the code 200) exactly when the store
takes it, and what is refused changes nothing.
-/

namespace OrionBroker

open Mongo

/-! ## The store -/

open Classical in
/-- One element about the entity; `none` is a refusal. -/
noncomputable def storeElement (action : UpdateAction) (caV : List ContextAttribute) (c : Option Contents) :
    Option (Option Contents) :=
  if UpdateOrAppend action ∧ ∃ ca ∈ caV, ca.value = "" then none
  else
    match c with
    | none => if action = .append ∧ legalIdUsageVector caV = true then some (some (Contents.of caV)) else none
    | some c =>
      if action = .delete ∧ caV = [] then some none
      else (Replay.run (Contents.step action) caV c).map some

/-- The elements about the entity, in order: whether all are taken, and what is left. -/
noncomputable def storeElements (E : EntityName) (action : UpdateAction) :
    List ContextElement → Option Contents → Bool × Option Contents
  | [], c => (true, c)
  | ce :: ces, c =>
    if ce.entityId.id = E.id then
      let c' := storeElement action ce.contextAttributeVector c
      let r := storeElements E action ces (c'.getD c)
      (c'.isSome && r.1, r.2)
    else storeElements E action ces c

inductive StoreRequest where
  | update (ctx : Ctx) (ces : List ContextElement)
  | query (tenant : String) (limit : Nat)

inductive StoreAnswer where
  | taken (all : Bool)
  | shown (contents : Option Contents)

noncomputable def serveStore (E : EntityName) : StoreRequest → Option Contents → StoreAnswer × Option Contents
  | .update ctx ces, c =>
    let r := storeElements E (updateAction ctx.action) ces c
    (.taken r.1, r.2)
  | .query _ _, c => (.shown c, c)

/-! ## The broker -/

def EntityName.entityId (E : EntityName) : EntityId := { id := E.id, type := E.type }

/-- Every response about the entity is 200. -/
def EntityName.allOk (E : EntityName) (cers : List ContextElementResponse) : Bool :=
  cers.all fun cer => decide (cer.entityId.id = E.id → cer.statusCode.code = .ok)

/-- What a client of the entity sees; a query shows attributes without values too (mongoQueryContext.cpp:76). -/
def serveBroker (env : Env) (E : EntityName) : StoreRequest → World → StoreAnswer × World
  | .update ctx ces, w =>
    let r := mongoUpdateContext env ctx ces w
    (.taken ((r.1.map fun answer => answer.1.isNone && E.allOk answer.2).getD false), r.2)
  | .query tenant limit, w =>
    let r := entitiesQuery env tenant [E.entityId] [] true E.servicePathV 0 limit w
    (.shown (r.1.toOption.bind fun cers => cers.head?.map fun cer => Contents.of cer.contextAttributeVector), r.2)

/-- The only document with the id stands for the contents. -/
structure DocHolds (E : EntityName) (d : EntityDoc) (c : Contents) : Prop where
  key : d.key = E.key
  location : d.location = none
  holds : Holds d.attrs c

inductive Represents (E : EntityName) (w : World) : Option Contents → Prop where
  | absent (gone : docsOf E.id w = []) : Represents E w none
  | present (d : EntityDoc) (c : Contents) (only : docsOf E.id w = [d]) (holds : DocHolds E d c) :
      Represents E w (some c)

/-- An element about the entity, with the attributes the contents are made of. -/
structure OrdinaryElement (E : EntityName) (ctx : Ctx) (ce : ContextElement) : Prop where
  names : E.Names ctx ce
  pattern : isTrue ce.entityId.isPattern = false
  ordinary : ∀ ca ∈ ce.contextAttributeVector, OrdinaryRequest ca
  keys : (ce.contextAttributeVector.map ContextAttribute.key).Nodup

/-- The requests at issue: ordinary ones about the entity, and any about ids that do not read as its id. -/
def StoreRequest.Ordinary (E : EntityName) : StoreRequest → Prop
  | .update ctx ces => ctx.servicePathV.length ≤ 1 ∧ ∀ ce ∈ ces, cString ce.entityId.id = E.id → OrdinaryElement E ctx ce
  | .query _ limit => 0 < limit

section
variable {env : Env} {ctx : Ctx} {E : EntityName} {ce : ContextElement} {w w' : World} {c : Option Contents}

theorem Represents.same (h : Represents E w c) (hd : docsOf E.id w' = docsOf E.id w) : Represents E w' c := by
  cases h with
  | absent hn => exact .absent (hd.trans hn)
  | present d c ho hh => exact .present d c (hd.trans ho) hh

/-! ## The answers name the entity of the element -/

theorem processDocument_entityId (env : Env) (ctx : Ctx) (ce : ContextElement) (r : EntityDoc) (w : World) :
    (processDocument env ctx ce r w).1.entityId = documentEntity r.key := by
  unfold processDocument
  simp only
  split
  · rfl
  · split
    · rfl
    · split
      · rfl
      · split <;> rfl

/-- The id of a response is that of the element, or what is read of it. -/
def RespondsTo (ce : ContextElement) (cer : ContextElementResponse) : Prop :=
  cer.entityId.id = ce.entityId.id ∨ cer.entityId.id = cString ce.entityId.id

theorem RespondsTo.named_iff {cer : ContextElementResponse} (h : RespondsTo ce cer)
    (hE : cString ce.entityId.id = E.id → ce.entityId.id = E.id) :
    cer.entityId.id = E.id ↔ ce.entityId.id = E.id := by
  rcases h with h | h
  · rw [h]
  · rw [h]
    refine ⟨hE, fun hid => ?_⟩
    rw [hid, E.cString_id]

theorem processDocuments_ids : ∀ {rs : List EntityDoc} {w : World}, (∀ r ∈ rs, r.key.id = ce.entityId.id) →
    ∀ cer ∈ (processDocuments env ctx ce rs w).1, RespondsTo ce cer
  | [], _, _, _, hc => by cases hc
  | r :: rs, w, h, cer, hc => by
    rw [List.forall_mem_cons] at h
    have hc : cer ∈ (processDocument env ctx ce r w).1 ::
        (processDocuments env ctx ce rs (processDocument env ctx ce r w).2.2).1 := hc
    rcases List.mem_cons.1 hc with hc | hc
    · refine .inr ?_
      rw [hc, processDocument_entityId, documentEntity, h.1]
    · exact processDocuments_ids h.2 cer hc

theorem ensureLocationIndex_sure (env : Env) (h : w.Sure) : ensureLocationIndex env w = (true, w) := by
  unfold ensureLocationIndex
  rw [h.call]
  split <;> rfl

theorem createdResponse_some (h : w.Sure) : ∃ cer, (createdResponse env ctx ce w).1 = some cer ∧
    cer.entityId.id = ce.entityId.id := by
  have hno : ∀ w1, createEntity env ctx ce.entityId ce.contextAttributeVector w ≠ (.escaped, w1) := by
    intro w1 e
    unfold createEntity at e
    rw [ensureLocationIndex_sure env h] at e
    dsimp only at e
    split at e
    · cases e
    · split at e
      · cases e
      · unfold insertEntity at e
        rw [h.call] at e
        dsimp only [Outcome.writeError] at e
        split at e <;> cases e
  unfold createdResponse
  simp only
  split
  · rename_i e
    exact absurd e (hno _)
  · exact ⟨_, rfl, rfl⟩
  · split <;> exact ⟨_, rfl, rfl⟩

theorem notFoundResponse_entityId (env : Env) (ctx : Ctx) (ce : ContextElement) :
    (notFoundResponse env ctx ce).entityId = ce.entityId := by
  unfold notFoundResponse
  split <;> rfl

/-- Without failing calls every element is answered, under its id. -/
theorem processContextElement_some (h : w.Sure) : ∃ cers, (processContextElement env ctx ce w).1 = some cers ∧
    ∀ cer ∈ cers, RespondsTo ce cer := by
  have hd := @processDocuments_ids env ctx ce (foundDocuments env ctx ce w) w foundDocuments_id
  have hs := processDocuments_sure env ctx ce (foundDocuments env ctx ce w) h
  unfold processContextElement
  split
  · exact ⟨_, rfl, by simp [buildGeneralErrorResponse, RespondsTo]⟩
  · split
    · exact ⟨_, rfl, by simp [buildGeneralErrorResponse, RespondsTo]⟩
    · rw [h.call]
      dsimp only [Outcome.queryError]
      split
      · split
        · refine ⟨_, rfl, ?_⟩
          rw [List.forall_mem_append]
          refine ⟨hd, ?_⟩
          rw [List.forall_mem_singleton, RespondsTo, notFoundResponse_entityId]
          exact .inl rfl
        · obtain ⟨cer, hcer, hid⟩ := @createdResponse_some env ctx ce _ hs
          split
          · rename_i e
            rw [e] at hcer
            cases hcer
          · rename_i e
            rw [e] at hcer
            cases hcer
            refine ⟨_, rfl, ?_⟩
            rw [List.forall_mem_append]
            exact ⟨hd, by rw [List.forall_mem_singleton]; exact .inl hid⟩
      · exact ⟨_, rfl, hd⟩

/-! ## The document of the entity -/

theorem processDocument_removal (ha : updateAction ctx.action = .delete) (hv : ce.contextAttributeVector = [])
    (h : w.Sure) (r : EntityDoc) : (processDocument env ctx ce r w).1.statusCode.code = .ok ∧
      (processDocument env ctx ce r w).2.2.entities = w.entities.remove (env.selects (removeSelector r.key)) := by
  unfold processDocument
  simp only
  rw [if_pos ⟨ha, by rw [hv]; rfl⟩]
  unfold removeEntity
  rw [h.call]
  exact ⟨rfl, rfl⟩

/-- A vector that goes through is answered with 200. -/
theorem processDocument_taken (h : w.Sure) {r : EntityDoc} {work : Work}
    (hdel : ¬ (updateAction ctx.action = .delete ∧ ce.contextAttributeVector = []))
    (hw : (vectorOn env ctx ce r w).result = .ok work) : (processDocument env ctx ce r w).1.statusCode.code = .ok := by
  have hs : (vectorOn env ctx ce r w).world.Sure :=
    processContextAttributeVector_sure env ctx (documentEntity r.key) ce.contextAttributeVector (startWork r) h
  unfold processDocument
  simp only
  rw [if_neg (by rwa [List.length_eq_zero_iff])]
  split
  · rename_i f hf
    rw [hf] at hw
    cases hw
  · split
    · rfl
    · unfold updateEntity
      rw [hs.call]
      rfl

/-- A document that does not count is answered with an error. -/
theorem processDocument_uncounted (r : EntityDoc) : (processDocument env ctx ce r w).2.1 = false →
    (processDocument env ctx ce r w).1.statusCode.code ≠ .ok := by
  unfold processDocument
  simp only
  split
  · intro h
    cases h
  · split
    · rename_i f hf
      exact fun _ => processContextAttributeVector_bad hf
    · split
      · intro h
        cases h
      · split
        · intro h
          cases h
        · intro h
          cases h

theorem selects_write_self {d : EntityDoc} (hb : d.key.Built) (hn : d.key.NoNul)
    (hp : ctx.servicePathV.head? = d.key.servicePath) :
    env.selects (writeSelector ctx d.key) d = true := by
  have hv : ctx.servicePathV = [] ↔ d.key.servicePath = none := by
    rw [← hp, List.head?_eq_none_iff]
  rw [selects_write_iff hv hb.servicePath]
  refine ⟨hn.id.cString.symm, ?_, ?_⟩
  · unfold selectedType
    cases ht : d.key.type with
    | none => simp
    | some t =>
      have hne : t ≠ "" := by
        rintro rfl
        exact hb.type ht
      rw [strField_some, (hn.type t ht).cString, if_neg hne]
  · cases hs : ctx.servicePathV with
    | nil => exact hv.1 hs
    | cons path rest =>
      rw [hs] at hp
      have hpath : d.key.servicePath = some path := hp.symm
      refine ⟨path, hpath, ?_⟩
      rw [hpath, strField_some, (hb.servicePath path hpath).noNul.cString]

theorem filter_updateOne_hit {col : Collection EntityDoc EntityKey EntityDoc.key} {p : EntityDoc → Bool} {pick : Nat}
    {f : EntityDoc → EntityDoc} {hf : ∀ d, (f d).key = d.key} {d : EntityDoc}
    (hd : (col.docs.filter fun x => decide (cString x.key.id = E.id)) = [d]) (h : ∀ x, p x = true → cString x.key.id = E.id)
    (hp : p d = true) :
    (col.updateOne p pick f hf).docs.filter (fun x => decide (cString x.key.id = E.id)) = [f d] := by
  have hmem : d ∈ col.docs := (List.mem_filter.1 (hd ▸ List.mem_singleton_self d)).1
  unfold Collection.updateOne
  split
  · rename_i ht
    rw [Collection.target_eq_none, Collection.find, List.filter_eq_nil_iff] at ht
    exact absurd hp (ht d hmem)
  · rename_i x ht
    obtain ⟨hx, hpx⟩ := Collection.target_mem ht
    have hin : x ∈ col.docs.filter fun x => decide (cString x.key.id = E.id) :=
      List.mem_filter.2 ⟨hx, decide_eq_true (h x hpx)⟩
    rw [hd, List.mem_singleton] at hin
    subst hin
    rw [filter_modify, hd]
    simp

/-- The attributes of an element, on the document of the entity. -/
theorem vector_refined (hr : ∀ ca ∈ ce.contextAttributeVector, OrdinaryRequest ca)
    (hv : UpdateOrAppend (updateAction ctx.action) → ∀ ca ∈ ce.contextAttributeVector, ca.value ≠ "") (hw : w.Sure)
    {d : EntityDoc} {c : Contents} (hd : DocHolds E d c) :
    Option.Rel (fun work c' => Holds work.attrs c' ∧ work.loc.locAttr = "" ∧ (work.entityModified = false → c' = c))
      (vectorOn env ctx ce d w).result.toOption
      (Replay.run (Contents.step (updateAction ctx.action)) ce.contextAttributeVector c) := by
  have hstart : Carries c (startWork d, []) c := ⟨hd.holds, by rw [startWork, hd.location], fun _ => rfl⟩
  have hrun := @run_contents ctx.now c env (updateAction ctx.action) c _ ce.contextAttributeVector hr hv hstart
  unfold vectorOn
  rw [processContextAttributeVector_toOption hw]
  revert hrun
  generalize Replay.run (runStep env ctx.now (updateAction ctx.action)) ce.contextAttributeVector (startWork d, []) = r
  generalize Replay.run (Contents.step (updateAction ctx.action)) ce.contextAttributeVector c = r'
  intro hrun
  cases hrun with
  | none => exact .none
  | some h => exact .some ⟨h.holds, h.unlocated, h.unmodified⟩

/-- A document that is written as the update query finds it. -/
theorem present_updated (hE : OrdinaryElement E ctx ce) {d : EntityDoc} {c : Contents} (ho : docsOf E.id w = [d])
    (hk : d.key = E.key) {work : Work} {pick : Nat} (hh : Holds work.attrs c) (hl : work.loc.locAttr = "")
    (he : w'.entities = w.entities.updateOne (env.selects (writeSelector ctx d.key)) pick (applyWork ctx.now work)
      fun _ => rfl) : Represents E w' (some c) := by
  refine .present (applyWork ctx.now work d) c ?_ ⟨hk, ?_, hh⟩
  · unfold docsOf
    rw [he]
    refine filter_updateOne_hit ho (fun x hx => (selects_write_id hx).trans (by rw [hk]; exact E.cString_id)) ?_
    refine selects_write_self (by rw [hk]; exact E.key_built) (by rw [hk]; exact E.key_noNul) ?_
    rw [hE.names.servicePathV, hk]
    rfl
  · show locField work.loc = none
    rw [locField, hl]
    rfl

theorem absent_removed {d : EntityDoc} (ho : docsOf E.id w = [d]) (hk : d.key = E.key)
    (he : w'.entities = w.entities.remove (env.selects (removeSelector d.key))) : Represents E w' none := by
  refine .absent ?_
  unfold docsOf
  rw [he, List.filter_eq_nil_iff]
  intro x hx hid
  obtain ⟨hx, hns⟩ := List.mem_filter.1 (show x ∈ w.entities.docs.filter fun y => !env.selects (removeSelector d.key) y
    from hx)
  have hin : x ∈ docsOf E.id w := List.mem_filter.2 ⟨hx, hid⟩
  rw [ho, List.mem_singleton] at hin
  subst hin
  rw [(selects_remove_iff (by rw [hk]; exact E.key_built) (by rw [hk]; exact E.key_noNul)).2 rfl] at hns
  cases hns

/-- **One element on the document of the entity.** -/
theorem document_refined (hE : OrdinaryElement E ctx ce) (hw : w.Sure) {d : EntityDoc} {c : Contents}
    (ho : docsOf E.id w = [d]) (hd : DocHolds E d c)
    (hne : ¬ (UpdateOrAppend (updateAction ctx.action) ∧ ∃ ca ∈ ce.contextAttributeVector, ca.value = "")) :
    ((processDocument env ctx ce d w).1.statusCode.code = .ok ↔
      (storeElement (updateAction ctx.action) ce.contextAttributeVector (some c)).isSome = true) ∧
    Represents E (processDocument env ctx ce d w).2.2
      ((storeElement (updateAction ctx.action) ce.contextAttributeVector (some c)).getD (some c)) := by
  have hrefl : Represents E w (some c) := .present d c ho hd
  unfold storeElement
  rw [if_neg hne]
  by_cases hdel : updateAction ctx.action = .delete ∧ ce.contextAttributeVector = []
  · obtain ⟨hok, he⟩ := @processDocument_removal env ctx ce w hdel.1 hdel.2 hw d
    simp only [hdel, and_self, if_true]
    exact ⟨iff_of_true hok rfl, absent_removed ho hd.key he⟩
  · have hvec := @vector_refined env ctx E ce w hE.ordinary (fun ha ca hca hv => hne ⟨ha, ca, hca, hv⟩) hw d c hd
    have hstep := processDocument_step env ctx ce d w
    simp only [if_neg hdel]
    revert hvec
    generalize Replay.run (Contents.step (updateAction ctx.action)) ce.contextAttributeVector c = r
    intro hvec
    cases hstep with
    | removed ha hv _ _ _ => exact absurd ⟨ha, hv⟩ hdel
    | removeFailed ha hv _ _ => exact absurd ⟨ha, hv⟩ hdel
    | failed f hf hbad hsame =>
      rw [hf] at hvec
      cases hvec
      exact ⟨iff_of_false hbad (by simp), hrefl.same (docsOf_entities hsame.entities)⟩
    | updateFailed work hok _ hbad _ => exact absurd (processDocument_taken hw hdel hok) hbad
    | unmodified work hok hm hcode hsame =>
      rw [hok] at hvec
      cases hvec with
      | some h =>
      rw [h.2.2 hm]
      exact ⟨iff_of_true hcode rfl, hrefl.same (docsOf_entities hsame.entities)⟩
    | updated work pick _ hok _ hcode he _ _ =>
      rw [hok] at hvec
      cases hvec with
      | some h => exact ⟨iff_of_true hcode rfl, present_updated hE ho hd.key h.1 h.2.1 he⟩

/-! ## One element -/

theorem emptyAttribute_eq_none_iff (hr : ∀ ca ∈ ce.contextAttributeVector, OrdinaryRequest ca) :
    emptyAttribute ctx ce = none ↔
      ¬ (UpdateOrAppend (updateAction ctx.action) ∧ ∃ ca ∈ ce.contextAttributeVector, ca.value = "") := by
  unfold emptyAttribute UpdateOrAppend
  by_cases ha : updateAction ctx.action = .update ∨ updateAction ctx.action = .append
  · rw [if_pos ha, List.find?_eq_none]
    simp only [ha, true_and, not_exists, not_and]
    refine forall₂_congr fun ca hca => ?_
    simp [(hr ca hca).string]
  · simp [ha]

/-- With one document the answer begins with its response, and ends there if that is 200. -/
theorem processContextElement_single (hp : isTrue ce.entityId.isPattern = false) (he : emptyAttribute ctx ce = none)
    (hw : w.Sure) {d : EntityDoc} (hf : foundDocuments env ctx ce w = [d]) :
    (processContextElement env ctx ce w).2.entities = (processDocument env ctx ce d w).2.2.entities ∧
    ∃ rest, (processContextElement env ctx ce w).1 = some ((processDocument env ctx ce d w).1 :: rest) ∧
      ((processDocument env ctx ce d w).1.statusCode.code = .ok → rest = []) := by
  have hbad := @processDocument_uncounted env ctx ce w d
  unfold processContextElement
  simp only [hp, he, hw.call, hf, processDocuments, Outcome.queryError, Bool.false_eq_true, if_false]
  cases hc : (processDocument env ctx ce d w).2.1 with
  | true =>
    simp only [if_true, Nat.zero_add, Nat.one_ne_zero, if_false]
    exact ⟨by trivial, [], by trivial, fun _ => rfl⟩
  | false =>
    have hap : updateAction ctx.action ≠ .append := by
      intro ha
      rw [processDocument_counted ha] at hc
      cases hc
    simp only [Bool.false_eq_true, if_false, if_true, hap, ne_eq, not_false_eq_true]
    exact ⟨by trivial, [notFoundResponse env ctx ce], by trivial, fun hok => absurd hok (hbad hc)⟩

theorem World.Sure.outcomeAt (h : w.Sure) (i : Nat) : w.outcomeAt i = .ok := by
  unfold World.Sure at h
  unfold World.outcomeAt
  rw [h]
  rfl

/-- An APPEND of an entity that is not there. -/
theorem creation_refined (hE : OrdinaryElement E ctx ce) (hw : w.Sure) (ho : docsOf E.id w = [])
    (hv : ∀ ca ∈ ce.contextAttributeVector, ca.value ≠ "") :
    ((∃ cer, (createdResponse env ctx ce w).1 = some cer ∧ cer.statusCode.code = .ok) ↔
      legalIdUsageVector ce.contextAttributeVector = true) ∧
    Represents E (createdResponse env ctx ce w).2
      (if legalIdUsageVector ce.contextAttributeVector = true then some (Contents.of ce.contextAttributeVector)
        else none) := by
  have hloc := processLocation_ordinary env.atof hE.ordinary
  have hkey := hE.names.createdKey
  have hfresh : createdKey ctx ce.entityId ∉ w.entities.docs.map EntityDoc.key := by
    intro hmem
    obtain ⟨x, hx, hxk⟩ := List.mem_map.1 hmem
    have hin : x ∈ docsOf E.id w := by
      refine List.mem_filter.2 ⟨hx, decide_eq_true ?_⟩
      rw [hxk, hkey]
      exact E.cString_id
    rw [ho] at hin
    cases hin
  have hcreatable : Creatable env ctx ce.entityId ce.contextAttributeVector w ↔
      legalIdUsageVector ce.contextAttributeVector = true :=
    ⟨fun h => h.legal, fun h => ⟨fun _ => by rw [hw.outcomeAt]; rfl, h, ⟨_, hloc⟩, by rw [hw.outcomeAt]; rfl, hfresh⟩⟩
  have hok := createdResponse_ok_iff env ctx ce w
  have hlookups : ∀ i < ce.contextAttributeVector.length, (w.outcomeAt (i + (indexCalls env + 1))).queryError = none :=
    fun i _ => by rw [hw.outcomeAt]; rfl
  refine ⟨by rw [hok, hcreatable]; exact and_iff_left hlookups, ?_⟩
  have he := createdResponse_entities env ctx ce w
  have hs := createEntity_step env ctx ce.entityId ce.contextAttributeVector w
  have hspec := (createEntity_spec env ctx ce.entityId ce.contextAttributeVector w).1
  rw [hcreatable] at hspec
  generalize (createEntity env ctx ce.entityId ce.contextAttributeVector w).1 = outcome at hs hspec
  cases hs with
  | escaped hsame =>
    rw [if_neg fun hl => by cases hspec.2 hl]
    exact .absent ((docsOf_entities (he.trans hsame.entities)).trans ho)
  | failed _ hsame =>
    rw [if_neg fun hl => by cases hspec.2 hl]
    exact .absent ((docsOf_entities (he.trans hsame.entities)).trans ho)
  | created loc hl hloc' hins _ =>
    rw [hloc] at hloc'
    cases hloc'
    rw [if_pos hl]
    have hid : cString (createdDoc ctx ce.entityId ce.contextAttributeVector {}).key.id = E.id := by
      rw [← E.cString_id, ← hE.names.id]
      rfl
    refine .present (createdDoc ctx ce.entityId ce.contextAttributeVector {}) _ ?_
      ⟨hkey, rfl, holds_created hE.ordinary hv hE.keys⟩
    have hold : (w.entities.docs.filter fun x => decide (cString x.key.id = E.id)) = [] := ho
    unfold docsOf
    rw [he, Collection.docs_insert hins, List.filter_append, hold, List.filter_singleton]
    simp [hid]

/-- An attribute without a value: nothing is done. -/
theorem empty_refused (hp : isTrue ce.entityId.isPattern = false) {ca : ContextAttribute}
    (he : emptyAttribute ctx ce = some ca) : ∃ cer, processContextElement env ctx ce w = (some [cer], w) ∧
      cer.statusCode.code ≠ .ok := by
  unfold processContextElement
  simp only [hp, he, Bool.false_eq_true, if_false]
  exact ⟨_, rfl, fun h => by cases h⟩

/-- UPDATE and DELETE of an entity that is not there. -/
theorem missing_refused (hp : isTrue ce.entityId.isPattern = false) (he : emptyAttribute ctx ce = none) (hw : w.Sure)
    (hf : foundDocuments env ctx ce w = []) (ha : updateAction ctx.action ≠ .append) :
    processContextElement env ctx ce w = (some [notFoundResponse env ctx ce], w) := by
  unfold processContextElement
  simp only [hp, he, hw.call, hf, processDocuments, Outcome.queryError, Bool.false_eq_true, if_false, if_true, ha, ne_eq,
    not_false_eq_true, List.nil_append]

/-- **One element about the entity** is answered and done like on the store. -/
theorem element_refined (hE : OrdinaryElement E ctx ce) (hw : w.Sure) (h : Represents E w c) :
    ∃ cers, (processContextElement env ctx ce w).1 = some cers ∧
      ((∀ cer ∈ cers, cer.statusCode.code = .ok) ↔
        (storeElement (updateAction ctx.action) ce.contextAttributeVector c).isSome = true) ∧
      Represents E (processContextElement env ctx ce w).2
        ((storeElement (updateAction ctx.action) ce.contextAttributeVector c).getD c) := by
  have hempty := @emptyAttribute_eq_none_iff ctx ce hE.ordinary
  by_cases hne : UpdateOrAppend (updateAction ctx.action) ∧ ∃ ca ∈ ce.contextAttributeVector, ca.value = ""
  · obtain ⟨ca, hca⟩ := Option.ne_none_iff_exists'.1 fun e => hempty.1 e hne
    obtain ⟨cer, hproc, hbad⟩ := @empty_refused env ctx ce w hE.pattern ca hca
    rw [hproc]
    unfold storeElement
    rw [if_pos hne]
    exact ⟨_, rfl, iff_of_false (fun hok => hbad (hok cer (List.mem_singleton_self cer))) (by simp), h⟩
  · have he := hempty.2 hne
    cases h with
    | present d c ho hd =>
      have hf := @EntityName.Names.found env ctx E ce w hE.names d ho hd.key
      obtain ⟨hent, rest, hcers, hrest⟩ := processContextElement_single hE.pattern he hw hf
      obtain ⟨hiff, hrep⟩ := @document_refined env ctx E ce w hE hw d c ho hd hne
      refine ⟨_, hcers, ?_, hrep.same (docsOf_entities hent)⟩
      rw [← hiff, List.forall_mem_cons]
      exact ⟨And.left, fun hok => ⟨hok, by rw [hrest hok]; simp⟩⟩
    | absent ho =>
      have hf : foundDocuments env ctx ce w = [] := by
        rw [foundDocuments_docsOf, hE.names.id, E.cString_id, ho]
        rfl
      unfold storeElement
      rw [if_neg hne]
      by_cases ha : updateAction ctx.action = .append
      · have hv : ∀ ca ∈ ce.contextAttributeVector, ca.value ≠ "" := fun ca hca hval => hne ⟨.inr ha, ca, hca, hval⟩
        obtain ⟨hiff, hrep⟩ := @creation_refined env ctx E ce w hE hw ho hv
        obtain ⟨cer, hcer, -⟩ := @createdResponse_some env ctx ce w hw
        have hproc := @processContextElement_creation env ctx ce w ha hE.pattern he (by rw [hw.call]; rfl) hf
        rw [hw.call] at hproc
        rw [hcer] at hiff
        rw [hproc, hcer]
        simp only [ha, true_and]
        by_cases hl : legalIdUsageVector ce.contextAttributeVector = true
        · obtain ⟨cer', hsome, hok⟩ := hiff.2 hl
          cases hsome
          rw [if_pos hl] at hrep ⊢
          exact ⟨[cer], rfl, iff_of_true (by rwa [List.forall_mem_singleton]) rfl, hrep⟩
        · rw [if_neg hl] at hrep ⊢
          have hbad : ¬ cer.statusCode.code = .ok := fun hok => hl (hiff.1 ⟨cer, rfl, hok⟩)
          exact ⟨[cer], rfl, iff_of_false (by rwa [List.forall_mem_singleton]) (by simp), hrep⟩
      · rw [missing_refused hE.pattern he hw hf ha]
        simp only [ha, false_and, if_false]
        refine ⟨_, rfl, iff_of_false (fun hok => ?_) (by simp), .absent ho⟩
        exact notFoundResponse_bad ce (hok _ (List.mem_singleton_self _))

/-! ## Requests -/

theorem processContextElements_cons {ces : List ContextElement} {cers rest : List ContextElementResponse}
    (h : (processContextElement env ctx ce w).1 = some cers)
    (hrest : (processContextElements env ctx ces (processContextElement env ctx ce w).2).1 = some rest) :
    processContextElements env ctx (ce :: ces) w =
      (some (cers ++ rest), (processContextElements env ctx ces (processContextElement env ctx ce w).2).2) := by
  rw [processContextElements]
  split
  · rename_i e
    rw [e] at h
    cases h
  · rename_i e
    rw [e] at h hrest ⊢
    cases h
    split
    · rename_i e1
      rw [e1] at hrest
      cases hrest
    · rename_i e1
      rw [e1] at hrest ⊢
      cases hrest
      rfl

theorem mongoUpdateContext_some {ces : List ContextElement} {cers : List ContextElementResponse}
    (hpaths : ctx.servicePathV.length ≤ 1) (h : (processContextElements env ctx ces w).1 = some cers) :
    mongoUpdateContext env ctx ces w = (some (none, cers), (processContextElements env ctx ces w).2) := by
  unfold mongoUpdateContext
  rw [if_neg (by omega)]
  split
  · rename_i e
    rw [e] at h
    cases h
  · rename_i e
    rw [e] at h ⊢
    cases h
    rfl

theorem storeElements_cons (E : EntityName) (action : UpdateAction) (ce : ContextElement) (ces : List ContextElement)
    (c : Option Contents) : storeElements E action (ce :: ces) c =
      if ce.entityId.id = E.id then
        ((storeElement action ce.contextAttributeVector c).isSome &&
            (storeElements E action ces ((storeElement action ce.contextAttributeVector c).getD c)).1,
          (storeElements E action ces ((storeElement action ce.contextAttributeVector c).getD c)).2)
      else storeElements E action ces c := rfl

theorem elements_refined : ∀ {ces : List ContextElement} {w : World} {c : Option Contents},
    (∀ ce ∈ ces, cString ce.entityId.id = E.id → OrdinaryElement E ctx ce) → w.Sure → Represents E w c →
    ∃ cers, (processContextElements env ctx ces w).1 = some cers ∧
      E.allOk cers = (storeElements E (updateAction ctx.action) ces c).1 ∧
      Represents E (processContextElements env ctx ces w).2 (storeElements E (updateAction ctx.action) ces c).2
  | [], _, _, _, _, h => ⟨[], rfl, rfl, h⟩
  | ce :: ces, w, c, hces, hw, h => by
    rw [List.forall_mem_cons] at hces
    have hsure := processContextElement_sure env ctx ce hw
    have hall : ∀ cers rest, E.allOk (cers ++ rest) = (E.allOk cers && E.allOk rest) := fun _ _ => List.all_append
    obtain ⟨cers, hcers, hids⟩ := @processContextElement_some env ctx ce w hw
    have hnamed : ∀ cer ∈ cers, (cer.entityId.id = E.id ↔ ce.entityId.id = E.id) := fun cer hcer =>
      (hids cer hcer).named_iff fun hread => (hces.1 hread).names.id
    rw [storeElements_cons]
    by_cases hid : ce.entityId.id = E.id
    · obtain ⟨cers', hcers', hiff, hrep⟩ := @element_refined env ctx E ce w c (hces.1 (by rw [hid, E.cString_id])) hw h
      rw [hcers, Option.some.injEq] at hcers'
      subst hcers'
      have hok : E.allOk cers = (storeElement (updateAction ctx.action) ce.contextAttributeVector c).isSome := by
        rw [Bool.eq_iff_iff, ← hiff, EntityName.allOk, List.all_eq_true]
        refine forall₂_congr fun cer hcer => ?_
        simp [hnamed cer hcer, hid]
      obtain ⟨rest, hrest, hokrest, hleft⟩ := elements_refined hces.2 hsure hrep
      rw [processContextElements_cons hcers hrest, if_pos hid]
      exact ⟨_, rfl, by rw [hall, hok, hokrest], hleft⟩
    · -- an element about another entity does not count
      have hok : E.allOk cers = true := by
        rw [EntityName.allOk, List.all_eq_true]
        intro cer hcer
        simp [hnamed cer hcer, hid]
      have hother : cString ce.entityId.id ≠ E.id := fun hread => hid (hces.1 hread).names.id
      obtain ⟨rest, hrest, hokrest, hleft⟩ :=
        elements_refined hces.2 hsure (h.same (processContextElement_docsOf_other hother))
      rw [processContextElements_cons hcers hrest, if_neg hid]
      exact ⟨_, rfl, by rw [hall, hok, hokrest, Bool.true_and], hleft⟩

/-- A query for the entity. -/
theorem query_refined {tenant : String} {limit : Nat} (hlen : E.servicePathV.length ≤ 1) (hlimit : 0 < limit)
    (hw : w.Sure) (h : Represents E w c) : serveBroker env E (.query tenant limit) w = (.shown c, w) := by
  have hcan := E.canonical
  have hsel : ∀ d : EntityDoc, env.selects (entitiesSelector [E.entityId] [] E.servicePathV) d = true ↔
      QueryTakes (notifyCtx "" E.servicePathV 0) E.entityId d.key := by
    intro d
    have := @entitiesSelector_iff env (notifyCtx "" E.servicePathV 0) E.entityId (by show "" ≠ "true"; decide) hlen
      hcan [] d
    exact this.trans (and_iff_left (by simp))
  have hfind : w.entities.find (env.selects (entitiesSelector [E.entityId] [] E.servicePathV)) =
      (docsOf E.id w).filter (env.selects (entitiesSelector [E.entityId] [] E.servicePathV)) := by
    unfold Collection.find docsOf
    rw [List.filter_filter]
    refine List.filter_congr fun d _ => ?_
    cases hd : env.selects (entitiesSelector [E.entityId] [] E.servicePathV) d with
    | false => rfl
    | true =>
      have hid : cString d.key.id = E.id := by
        rw [((hsel d).1 hd).1]
        exact E.cString_id
      simp [hid]
  have hcompiles : (entitiesSelector [E.entityId] [] E.servicePathV).compiles env.engine = true := by
    refine entitiesSelector_compiles_iff.2 ⟨by simp, fun e he ht => ?_, fillQueryServicePath_compiles env.engine hcan⟩
    rw [List.mem_singleton.1 he] at ht
    exact absurd ht (show "" ≠ "true" by decide)
  unfold serveBroker
  simp only [entitiesQuery_sure env hw, entitiesResponses_of_compiles hcompiles]
  unfold entitiesFind entitiesCursor
  rw [show w.entities.find (fun d => (entitiesSelector [E.entityId] [] E.servicePathV).matches env.engine d.toBson) = _
    from hfind]
  cases h with
  | absent ho =>
    simp [ho, Except.toOption]
  | present d c ho hd =>
    have hd1 : env.selects (entitiesSelector [E.entityId] [] E.servicePathV) d = true := by
      rw [hsel, hd.key]
      exact @createdKey_taken (notifyCtx "" E.servicePathV 0) E.entityId hcan
    have hshow := @contextAttributeVector_shown [] d ⟨hd.holds.keys, fun a ha => (hd.holds.ordinary a ha).whole⟩ true
    have hincl : d.included [] = d.attrs := List.filter_eq_self.2 fun a _ => rfl
    have hone : ([d].filter (env.selects (entitiesSelector [E.entityId] [] E.servicePathV))) = [d] := by
      simp [hd1]
    have htake : [d].take limit = [d] := List.take_of_length_le hlimit
    simp only [ho, hone, List.insertionSort_cons, List.insertionSort_nil, List.orderedInsert_nil, List.drop_zero, htake,
      Except.toOption, Option.bind_some, List.map_cons, List.head?_cons, Option.map_some, hshow, hincl, hd.holds.shown]

/-- **A client cannot tell the broker from the store.** With no failing database call, any list of requests (queries
for the entity, updates with ordinary elements about it and any elements about other ids) is answered alike, and
the only document with the id stands for the contents of the store at the end. -/
theorem store_refined {rs : List StoreRequest} (hlen : E.servicePathV.length ≤ 1) (hrs : ∀ r ∈ rs, r.Ordinary E)
    (hw : w.Sure) (h : Represents E w c) :
    (Replay.serve (serveBroker env E) rs w).1 = (Replay.serve (serveStore E) rs c).1 ∧
    Represents E (Replay.serve (serveBroker env E) rs w).2 (Replay.serve (serveStore E) rs c).2 := by
  have hsim := @Replay.serve_simulates _ _ _ _ (fun w c => World.Sure w ∧ Represents E w c) (serveBroker env E)
    (serveStore E) rs w c (fun r hr w c hR => ?_) ⟨hw, h⟩
  · exact ⟨hsim.1, hsim.2.2⟩
  · cases r with
    | query tenant limit =>
      rw [query_refined hlen (hrs _ hr) hR.1 hR.2]
      exact ⟨rfl, hR⟩
    | update ctx ces =>
      obtain ⟨hpaths, hces⟩ := hrs _ hr
      obtain ⟨cers, hcers, hok, hrep⟩ := @elements_refined env ctx E ces w c hces hR.1 hR.2
      have hsure := mongoUpdateContext_sure env ctx ces hR.1
      have hval := mongoUpdateContext_some hpaths hcers
      rw [hval] at hsure
      unfold serveBroker serveStore
      simp only [hval, Option.map_some, Option.getD_some, Option.isNone_none, Bool.true_and, hok]
      exact ⟨trivial, hsure, hrep⟩

end

/-! ## A door -/

theorem canonical_nil : ∀ path ∈ ([] : List String), CanonicalPath path := by simp

def doorName : EntityName where
  id := "Door1"
  type := "Door"
  nonempty := by decide
  canonical := canonical_nil
  noNul := by decide

def doorElement (caV : List ContextAttribute) : ContextElement where
  entityId := { id := "Door1", type := "Door" }
  contextAttributeVector := caV

def doorClosed : ContextAttribute where
  name := "state"
  type := "text"
  value := "closed"
  metadataVector := [⟨"since", "time", "9"⟩]

def doorOpen : ContextAttribute := { name := "state", value := "open" }

/-- The door is created, opened together with a lamp that is not there, and has no lock to delete. -/
def doorRequests : List StoreRequest :=
  [.update { action := "APPEND" } [doorElement [doorClosed]],
    .update { action := "UPDATE" }
      [{ entityId := { id := "Lamp1" }, contextAttributeVector := [{ name := "state", value := "on" }] },
        doorElement [doorOpen]],
    .update { action := "DELETE" } [doorElement [{ name := "lock" }]],
    .query "" 20]

theorem doorRequests_ordinary : ∀ r ∈ doorRequests, r.Ordinary doorName := by
  have hone : ∀ (action : String) (ca : ContextAttribute), OrdinaryRequest ca →
      OrdinaryElement doorName { action := action } (doorElement [ca]) := fun action ca h =>
    ⟨⟨rfl, rfl, rfl, rfl⟩, rfl, by rw [doorElement, List.forall_mem_singleton]; exact h, by simp [doorElement]⟩
  have hplain : ∀ name value, name ≠ "" → NoNul name ∧ NoNul value → OrdinaryRequest { name := name, value := value } :=
    fun name value h hn => ⟨⟨hn.1, noNul_empty, hn.2, by simp⟩, h, rfl, by simp, by simp, by simp⟩
  intro r hr
  simp only [doorRequests, List.mem_cons, List.not_mem_nil, or_false] at hr
  rcases hr with rfl | rfl | rfl | rfl
  · refine ⟨by decide, ?_⟩
    rw [List.forall_mem_singleton]
    exact fun _ => hone _ _ ⟨by decide, by decide, rfl, by simp [doorClosed, NGSI_MD_LOCATION], by simp [doorClosed],
      by simp [doorClosed]⟩
  · refine ⟨by decide, ?_⟩
    rw [List.forall_mem_cons, List.forall_mem_singleton]
    exact ⟨fun hid => absurd hid (by decide), fun _ => hone _ _ (hplain _ _ (by decide) (by decide))⟩
  · refine ⟨by decide, ?_⟩
    rw [List.forall_mem_singleton]
    exact fun _ => hone _ _ (hplain _ _ (by decide) (by decide))
  · show 0 < 20
    decide

theorem Contents.of_singleton (ca : ContextAttribute) (k : String × String) :
    Contents.of [ca] k = if ca.key = k then some ca.content else none := by
  unfold Contents.of
  rw [KeyMap.lookup_cons, KeyMap.lookup_nil]
  split <;> rfl

theorem doorRequests_answers : ∃ c : Contents,
    (Replay.serve (serveBroker (Env.plain fun _ _ => false) doorName) doorRequests {}).1 =
      [.taken true, .taken true, .taken false, .shown (some c)] ∧
    (c ("state", "")).map Content.value = some "open" ∧
    (c ("state", "")).map (fun x => x.metadata ("since", "time")) = some (some "9") := by
  have hrun := @store_refined (Env.plain fun _ _ => false) doorName {} none doorRequests (by decide)
    doorRequests_ordinary rfl (.absent rfl)
  have hclosed : doorClosed.key = ("state", "") := rfl
  have hopen : doorOpen.key = ("state", "") := rfl
  have hlock : ContextAttribute.key { name := "lock" } = ("lock", "") := rfl
  have hlegal : legalIdUsageVector [doorClosed] = true := by decide
  have hvalues : doorClosed.value = "closed" ∧ doorOpen.value = "open" := ⟨rfl, rfl⟩
  have hcreated : storeElement .append [doorClosed] none = some (some (Contents.of [doorClosed])) := by
    simp [storeElement, hlegal, hvalues]
  have hopened : storeElement .update [doorOpen] (some (Contents.of [doorClosed])) = some (some
      (Function.update (Contents.of [doorClosed]) ("state", "") (some (doorClosed.content.revised doorOpen)))) := by
    simp [storeElement, Contents.step, Contents.of_singleton, hclosed, hopen, hvalues]
  have hrefused : ∀ x, storeElement .delete [{ name := "lock" }]
      (some (Function.update (Contents.of [doorClosed]) ("state", "") x)) = none := by
    intro x
    simp [storeElement, UpdateOrAppend, Contents.step, hlock, hclosed, Contents.of_singleton]
  refine ⟨Function.update (Contents.of [doorClosed]) ("state", "") (some (doorClosed.content.revised doorOpen)), ?_,
    rfl, rfl⟩
  have happend : updateAction "APPEND" = .append := by decide
  have hupdate : updateAction "UPDATE" = .update := by decide
  have hdelete : updateAction "DELETE" = .delete := by decide
  rw [hrun.1]
  simp [doorRequests, Replay.serve, serveStore, storeElements, doorElement, doorName, happend, hupdate, hdelete,
    hcreated, hopened, hrefused]

end OrionBroker
