import OrionBroker.Update.Copies
import OrionBroker.Update.Removal

/-!
# A broker that is notified (mongoNotifyContext.cpp:37-66)

| here | there |
| --- | --- |
| `mongoNotifyContext` | the same (:37) |

The element of each response is appended like one of a request; the answers are dropped, so the notifier is told 200
whatever became of them. The broker then keeps a copy of an entity that another broker has. `Replica` is a run of it:
the notifications about the entity come in some order, in between are requests about other entities. If the documents
that the notifications show grew from one to the next, the copy is one of them and never a mixture of two
(`Replica.copies`).
-/

namespace OrionBroker

open Mongo

/-- The element of a response. -/
def ContextElementResponse.contextElement (cer : ContextElementResponse) : ContextElement where
  entityId := cer.entityId
  contextAttributeVector := cer.contextAttributeVector

/-- What `processContextElement` is called with: no URI parameters, no caller. -/
def notifyCtx (tenant : String) (servicePathV : List String) (now : Int) : Ctx where
  action := "append"
  tenant := tenant
  servicePathV := servicePathV
  now := now

/-- `none` when an exception escapes. -/
def mongoNotifyContext (env : Env) (contextElementResponseVector : List ContextElementResponse) (tenant : String)
    (servicePathV : List String) (now : Int) (w : World) : Option HttpStatusCode × World :=
  match processContextElements env (notifyCtx tenant servicePathV now)
    (contextElementResponseVector.map ContextElementResponse.contextElement) w with
  | (none, w) => (none, w)
  | (some _, w) => (some .ok, w)

theorem mongoNotifyContext_world (env : Env) (cerV : List ContextElementResponse) (tenant : String)
    (servicePathV : List String) (now : Int) (w : World) :
    (mongoNotifyContext env cerV tenant servicePathV now w).2 =
      (processContextElements env (notifyCtx tenant servicePathV now)
        (cerV.map ContextElementResponse.contextElement) w).2 := by
  unfold mongoNotifyContext
  split
  · rename_i e
    rw [e]
  · rename_i e
    rw [e]

/-! ## The documents with one id -/

/-- The documents whose id reads as this one. -/
def docsOf (id : String) (w : World) : List EntityDoc := w.entities.docs.filter fun d => decide (cString d.key.id = id)

theorem docsOf_entities {id : String} {w w' : World} (h : w'.entities = w.entities) : docsOf id w' = docsOf id w := by
  rw [docsOf, docsOf, h]

section
variable {env : Env} {ctx : Ctx} {id : String}

theorem selects_read_id {en : EntityId} {d : EntityDoc} (h : env.selects (readSelector ctx en) d = true) :
    d.key.id = en.id := by
  rw [readSelector, selects_all] at h
  have hid := h _ (List.mem_cons_self ..)
  rwa [Env.selects, matches_id, decide_eq_true_iff] at hid

theorem selects_write_id {key : EntityKey} {d : EntityDoc} (h : env.selects (writeSelector ctx key) d = true) :
    cString d.key.id = cString key.id := by
  rw [writeSelector, selects_all] at h
  have hid := h _ (List.mem_cons_self ..)
  rw [Env.selects, matches_id, decide_eq_true_iff] at hid
  rw [hid, cString_cString]

theorem selects_remove_id {key : EntityKey} {d : EntityDoc} (h : env.selects (removeSelector key) d = true) :
    cString d.key.id = cString key.id := by
  rw [removeSelector, selects_all] at h
  have hid := h _ (List.mem_cons_self ..)
  rw [Env.selects, matches_id, decide_eq_true_iff] at hid
  rw [hid, cString_cString]

theorem foundDocuments_id {ce : ContextElement} {w : World} :
    ∀ r ∈ foundDocuments env ctx ce w, r.key.id = ce.entityId.id :=
  fun _ hr => selects_read_id (Collection.mem_find.1 hr).2

/-- What is found are some of the documents with the id. -/
theorem foundDocuments_docsOf (env : Env) (ctx : Ctx) (ce : ContextElement) (w : World) :
    foundDocuments env ctx ce w =
      (docsOf (cString ce.entityId.id) w).filter (env.selects (readSelector ctx ce.entityId)) := by
  unfold foundDocuments Collection.find docsOf
  rw [List.filter_filter]
  refine List.filter_congr fun d _ => ?_
  cases hd : env.selects (readSelector ctx ce.entityId) d with
  | false => rfl
  | true => simp [selects_read_id hd]

section
variable {c : Collection EntityDoc EntityKey EntityDoc.key} {p : EntityDoc → Bool} {pick : Nat}
  {f : EntityDoc → EntityDoc} {hf : ∀ d, (f d).key = d.key}

theorem filter_remove_other (h : ∀ d, p d = true → cString d.key.id ≠ id) :
    (c.remove p).docs.filter (fun d => decide (cString d.key.id = id)) =
      c.docs.filter fun d => decide (cString d.key.id = id) := by
  show (c.docs.filter fun d => !p d).filter _ = _
  rw [List.filter_filter]
  refine List.filter_congr fun d _ => ?_
  cases hp : p d with
  | false => simp
  | true => simp [h d hp]

theorem filter_modify {key : EntityKey} :
    (c.modify key f hf).docs.filter (fun d => decide (cString d.key.id = id)) =
      (c.docs.filter fun d => decide (cString d.key.id = id)).map fun d => if d.key = key then f d else d := by
  show (c.docs.map fun d => if d.key = key then f d else d).filter _ = _
  rw [List.filter_map]
  congr 1
  refine List.filter_congr fun d _ => ?_
  by_cases hk : d.key = key
  · simp only [Function.comp_apply, if_pos hk, hf]
  · simp only [Function.comp_apply, if_neg hk]

theorem filter_updateOne_other (h : ∀ d, p d = true → cString d.key.id ≠ id) :
    (c.updateOne p pick f hf).docs.filter (fun d => decide (cString d.key.id = id)) =
      c.docs.filter fun d => decide (cString d.key.id = id) := by
  unfold Collection.updateOne
  split
  · rfl
  · rename_i d ht
    have hd := h d (Collection.target_mem ht).2
    rw [filter_modify]
    refine (List.map_congr_left fun x hx => if_neg fun hk => ?_).trans (List.map_id _)
    have hx := (List.mem_filter.1 hx).2
    rw [decide_eq_true_iff, hk] at hx
    exact hd hx

/-- The only document with the id is modified, or none is. -/
theorem filter_updateOne_only {d : EntityDoc} (hd : (c.docs.filter fun x => decide (cString x.key.id = id)) = [d])
    (h : ∀ x, p x = true → cString x.key.id = id) :
    (c.updateOne p pick f hf).docs.filter (fun x => decide (cString x.key.id = id)) = [d] ∨
    (c.updateOne p pick f hf).docs.filter (fun x => decide (cString x.key.id = id)) = [f d] := by
  unfold Collection.updateOne
  split
  · exact .inl hd
  · rename_i x ht
    obtain ⟨hx, hp⟩ := Collection.target_mem ht
    have hmem : x ∈ c.docs.filter fun x => decide (cString x.key.id = id) := List.mem_filter.2 ⟨hx, decide_eq_true (h x hp)⟩
    rw [hd, List.mem_singleton] at hmem
    subst hmem
    rw [filter_modify, hd]
    exact .inr (by simp)

end

/-! ### One document of the cursor -/

theorem processDocument_docsOf_other {ce : ContextElement} {r : EntityDoc} {w : World} (h : cString r.key.id ≠ id) :
    docsOf id (processDocument env ctx ce r w).2.2 = docsOf id w := by
  cases processDocument_step env ctx ce r w with
  | removed _ _ _ he _ =>
    unfold docsOf
    rw [he]
    exact filter_remove_other fun d hd => by rw [selects_remove_id hd]; exact h
  | removeFailed _ _ _ hs => exact docsOf_entities hs.entities
  | failed _ _ _ hs => exact docsOf_entities hs.entities
  | unmodified _ _ _ _ hs => exact docsOf_entities hs.entities
  | updateFailed _ _ _ _ hs => exact docsOf_entities hs.entities
  | updated _ _ _ _ _ _ he _ _ =>
    unfold docsOf
    rw [he]
    exact filter_updateOne_other fun d hd => by rw [selects_write_id hd]; exact h

theorem processDocuments_docsOf_other {ce : ContextElement} : ∀ {rs : List EntityDoc} {w : World},
    (∀ r ∈ rs, cString r.key.id ≠ id) → docsOf id (processDocuments env ctx ce rs w).2.2 = docsOf id w
  | [], _, _ => rfl
  | r :: rs, w, h => by
    rw [List.forall_mem_cons] at h
    rw [processDocuments_cons_world, processDocuments_docsOf_other h.2, processDocument_docsOf_other h.1]

/-- What UPDATE and APPEND do to the only document with an id. -/
theorem processDocument_docsOf_own {ce : ContextElement} {r : EntityDoc} {w : World}
    (ha : UpdateOrAppend (updateAction ctx.action)) (hr : docsOf (cString r.key.id) w = [r]) :
    docsOf (cString r.key.id) (processDocument env ctx ce r w).2.2 = [r] ∨
    ∃ work, (vectorOn env ctx ce r w).result = .ok work ∧
      docsOf (cString r.key.id) (processDocument env ctx ce r w).2.2 = [applyWork ctx.now work r] := by
  have hno : updateAction ctx.action ≠ .delete := by
    rcases ha with ha | ha <;> rw [ha] <;> decide
  cases processDocument_step env ctx ce r w with
  | removed hd _ _ _ _ => exact absurd hd hno
  | removeFailed _ _ _ hs => exact .inl ((docsOf_entities hs.entities).trans hr)
  | failed _ _ _ hs => exact .inl ((docsOf_entities hs.entities).trans hr)
  | unmodified _ _ _ _ hs => exact .inl ((docsOf_entities hs.entities).trans hr)
  | updateFailed _ _ _ _ hs => exact .inl ((docsOf_entities hs.entities).trans hr)
  | updated work pick _ hw _ _ he _ _ =>
    rcases @filter_updateOne_only (cString r.key.id) w.entities (env.selects (writeSelector ctx r.key)) pick
      (applyWork ctx.now work) (fun _ => rfl) r hr (fun x hx => selects_write_id hx) with h | h
    · refine .inl ?_
      unfold docsOf
      rw [he]
      exact h
    · refine .inr ⟨work, hw, ?_⟩
      unfold docsOf
      rw [he]
      exact h

/-! ### Creation -/

theorem createdResponse_docsOf {ce : ContextElement} {w : World} :
    docsOf id (createdResponse env ctx ce w).2 = docsOf id w ∨
    ∃ loc, processLocation env.atof ce.contextAttributeVector = .ok loc ∧
      docsOf id (createdResponse env ctx ce w).2 = docsOf id w ++
        [createdDoc ctx ce.entityId ce.contextAttributeVector loc].filter fun d => decide (cString d.key.id = id) := by
  have he := createdResponse_entities env ctx ce w
  have hs := createEntity_step env ctx ce.entityId ce.contextAttributeVector w
  generalize (createEntity env ctx ce.entityId ce.contextAttributeVector w).1 = c at hs
  cases hs with
  | escaped hs => exact .inl (docsOf_entities (he.trans hs.entities))
  | failed _ hs => exact .inl (docsOf_entities (he.trans hs.entities))
  | created loc _ hloc hi _ =>
    refine .inr ⟨loc, hloc, ?_⟩
    unfold docsOf
    rw [he, Collection.docs_insert hi, List.filter_append]

/-! ### One element -/

/-- What one element does to the entities is what its documents do to them, or its creation. -/
theorem processContextElement_outcome (env : Env) (ctx : Ctx) (ce : ContextElement) (w : World) :
    (processContextElement env ctx ce w).2.entities = w.entities ∨
    (processContextElement env ctx ce w).2.entities =
      (processDocuments env ctx ce (foundDocuments env ctx ce w) w.call.2).2.2.entities ∨
    (updateAction ctx.action = .append ∧ foundDocuments env ctx ce w = [] ∧
      (processContextElement env ctx ce w).2.entities = (createdResponse env ctx ce w.call.2).2.entities) := by
  unfold processContextElement
  simp only
  split
  · exact .inl rfl
  · split
    · exact .inl rfl
    · split
      · exact .inl w.call_same.entities
      · split
        · rename_i hn
          split
          · exact .inr (.inl rfl)
          · rename_i hap
            have hap : updateAction ctx.action = .append := by simpa using hap
            have hnone := processDocuments_none hap hn
            rw [hnone, processDocuments]
            refine .inr (.inr ⟨hap, rfl, ?_⟩)
            split
            · rename_i e
              rw [e]
            · rename_i e
              rw [e]
        · exact .inr (.inl rfl)

theorem processContextElement_docsOf_other {ce : ContextElement} {w : World} (h : cString ce.entityId.id ≠ id) :
    docsOf id (processContextElement env ctx ce w).2 = docsOf id w := by
  have hcall : docsOf id w.call.2 = docsOf id w := docsOf_entities w.call_same.entities
  rcases processContextElement_outcome env ctx ce w with he | he | ⟨_, _, he⟩
  · exact docsOf_entities he
  · rw [docsOf_entities he, processDocuments_docsOf_other fun r hr => by rw [foundDocuments_id r hr]; exact h]
    exact hcall
  · rw [docsOf_entities he]
    rcases @createdResponse_docsOf env ctx id ce w.call.2 with hc | ⟨loc, _, hc⟩
    · exact hc.trans hcall
    · have hkey : ¬ cString (createdDoc ctx ce.entityId ce.contextAttributeVector loc).key.id = id := h
      rw [hc, hcall, List.filter_singleton]
      simp [hkey]

end

/-! ## An entity under its name -/

/-- What names an entity in a request: id, type and service path. The name is read back as it is sent. -/
structure EntityName where
  id : String
  type : String := ""
  servicePathV : List String := []
  nonempty : id ≠ ""
  canonical : ∀ path ∈ servicePathV, CanonicalPath path
  noNul : NoNul id ∧ NoNul type

@[simp] theorem EntityName.cString_id (E : EntityName) : cString E.id = E.id := E.noNul.1.cString

/-- Its `_id` when it is created. -/
def EntityName.key (E : EntityName) : EntityKey where
  id := E.id
  type := if E.type = "" then none else some E.type
  servicePath := E.servicePathV.head?

/-- The element is about the entity. -/
structure EntityName.Names (E : EntityName) (ctx : Ctx) (ce : ContextElement) : Prop where
  id : ce.entityId.id = E.id
  type : ce.entityId.type = E.type
  servicePathV : ctx.servicePathV = E.servicePathV
  notExistType : ctx.notExistType = false

section
variable {env : Env} {ctx : Ctx} {E : EntityName} {ce : ContextElement} {w : World}

theorem EntityName.key_built (E : EntityName) : E.key.Built := by
  refine ⟨fun h => ?_, fun path hp => E.canonical path (List.mem_of_head? hp)⟩
  by_cases ht : E.type = "" <;> simp [EntityName.key, ht] at h

theorem EntityName.key_noNul (E : EntityName) : E.key.NoNul := by
  refine ⟨E.noNul.1, fun t ht => ?_⟩
  by_cases he : E.type = ""
  · simp [EntityName.key, he] at ht
  · simp only [EntityName.key, he, if_false, Option.mem_def, Option.some.injEq] at ht
    rw [← ht]
    exact E.noNul.2

theorem EntityName.Names.createdKey (h : E.Names ctx ce) : createdKey ctx ce.entityId = E.key := by
  unfold OrionBroker.createdKey EntityName.key
  rw [h.id, h.type, h.servicePathV]

/-- The read query finds the entity. -/
theorem EntityName.Names.found (h : E.Names ctx ce) {d : EntityDoc} (hd : docsOf E.id w = [d]) (hk : d.key = E.key) :
    foundDocuments env ctx ce w = [d] := by
  have hsel : env.selects (readSelector ctx ce.entityId) d = true := by
    rw [selects_read_iff h.notExistType (by rw [h.servicePathV]; exact E.canonical) (by rw [hk]; exact E.key_built), hk]
    refine ⟨h.id.symm, ?_, ?_⟩
    · rw [h.type]
      by_cases ht : E.type = ""
      · exact .inl ht
      · exact .inr (if_neg ht)
    · rw [h.servicePathV]
      show KeyPathAddressed E.servicePathV.head? E.servicePathV.head?
      cases E.servicePathV.head? with
      | none => rfl
      | some path => exact .inl rfl
  rw [foundDocuments_docsOf, h.id, E.cString_id, hd, List.filter_singleton, hsel]
  rfl

/-- What UPDATE and APPEND make of the documents of an entity. -/
inductive DocsOutcome (env : Env) (ctx : Ctx) (ce : ContextElement) (ds ds' : List EntityDoc) : Prop where
  | kept (same : ds' = ds)
  | updated (d : EntityDoc) (w : World) (work : Work) (before : ds = [d])
      (result : (vectorOn env ctx ce d w).result = .ok work) (after : ds' = [applyWork ctx.now work d])
  | created (loc : Loc) (action : updateAction ctx.action = .append) (before : ds = [])
      (location : processLocation env.atof ce.contextAttributeVector = .ok loc)
      (after : ds' = [createdDoc ctx ce.entityId ce.contextAttributeVector loc])

theorem EntityName.Names.outcome (h : E.Names ctx ce) (ha : UpdateOrAppend (updateAction ctx.action))
    (hd : docsOf E.id w = [] ∨ ∃ d, docsOf E.id w = [d] ∧ d.key = E.key) :
    DocsOutcome env ctx ce (docsOf E.id w) (docsOf E.id (processContextElement env ctx ce w).2) := by
  have hcall : docsOf E.id w.call.2 = docsOf E.id w := docsOf_entities w.call_same.entities
  rcases processContextElement_outcome env ctx ce w with he | he | ⟨hap, hnone, he⟩
  · exact .kept (docsOf_entities he)
  · rw [docsOf_entities he]
    rcases hd with hd | ⟨d, hd, hk⟩
    · have hnone : foundDocuments env ctx ce w = [] := by
        rw [foundDocuments_docsOf, h.id, E.cString_id, hd]
        rfl
      rw [hnone]
      exact .kept hcall
    · rw [h.found hd hk]
      have hid : cString d.key.id = E.id := by
        rw [hk]
        exact E.cString_id
      rw [processDocuments_cons_world, processDocuments, hd]
      rw [← hid] at hcall hd ⊢
      rcases @processDocument_docsOf_own env ctx ce d w.call.2 ha (hcall.trans hd) with hr | ⟨work, hw, hr⟩
      · exact .kept hr
      · exact .updated d _ work rfl hw hr
  · rw [docsOf_entities he]
    have hempty : docsOf E.id w = [] := by
      rcases hd with hd | ⟨d, hd, hk⟩
      · exact hd
      · rw [h.found hd hk] at hnone
        cases hnone
    rcases @createdResponse_docsOf env ctx E.id ce w.call.2 with hc | ⟨loc, hloc, hc⟩
    · exact .kept (hc.trans hcall)
    · have hid : cString (createdDoc ctx ce.entityId ce.contextAttributeVector loc).key.id = E.id := by
        rw [← E.cString_id, ← h.id]
        rfl
      refine .created loc hap hempty hloc ?_
      rw [hc, hcall, hempty, List.filter_singleton]
      simp [hid]

end

/-! ## A broker that keeps a copy -/

/-- A run of the notified broker, with the notifications it has taken so far. Nothing else is about the entity, or about
one whose id reads as its id. -/
inductive Replica (env : Env) (E : EntityName) : List (List ContextElementResponse) → World → Prop where
  | start {w : World} (none : docsOf E.id w = []) : Replica env E [] w
  | notified {ns : List (List ContextElementResponse)} {w : World} (cerV : List ContextElementResponse) (tenant : String)
      (servicePathV : List String) (now : Int) (before : Replica env E ns w)
      (names : ∀ cer ∈ cerV, cString cer.entityId.id = E.id →
        cer.entityId.id = E.id ∧ cer.entityId.type = E.type ∧ servicePathV = E.servicePathV) :
      Replica env E (ns ++ [cerV]) (mongoNotifyContext env cerV tenant servicePathV now w).2
  | updated {ns : List (List ContextElementResponse)} {w : World} (ctx : Ctx) (ces : List ContextElement)
      (before : Replica env E ns w) (others : ∀ ce ∈ ces, cString ce.entityId.id ≠ E.id) :
      Replica env E ns (mongoUpdateContext env ctx ces w).2
  | other {ns : List (List ContextElementResponse)} {w w' : World} (before : Replica env E ns w)
      (entities : w'.entities = w.entities) : Replica env E ns w'

/-- The broker has at most a copy of one of the documents. -/
def CopyOf (E : EntityName) (attrL : List String) (rs : List EntityDoc) (w : World) : Prop :=
  docsOf E.id w = [] ∨ ∃ b, docsOf E.id w = [b] ∧ b.key = E.key ∧ ∃ r ∈ rs, Copies attrL r b

section
variable {env : Env} {ctx : Ctx} {E : EntityName} {attrL : List String} {w w' : World}

theorem CopyOf.mono {rs rs' : List EntityDoc} (h : CopyOf E attrL rs w) (hs : ∀ r ∈ rs, r ∈ rs') :
    CopyOf E attrL rs' w := by
  rcases h with h | ⟨b, hb, hk, r, hr, hc⟩
  · exact .inl h
  · exact .inr ⟨b, hb, hk, r, hs r hr, hc⟩

theorem CopyOf.same {rs : List EntityDoc} (h : CopyOf E attrL rs w) (hd : docsOf E.id w' = docsOf E.id w) :
    CopyOf E attrL rs w' := by
  unfold CopyOf
  rw [hd]
  exact h

/-- One element that shows a document which all the earlier ones grew to. -/
theorem CopyOf.element {rs : List EntityDoc} {r : EntityDoc} {ce : ContextElement} (h : CopyOf E attrL rs w)
    (hn : E.Names ctx ce) (ha : updateAction ctx.action = .append) (hw : ∀ r ∈ rs, WholeArray r.attrs)
    (hr : WholeArray r.attrs) (hgrow : ∀ r' ∈ rs, DocGrows r' r)
    (hce : ce.contextAttributeVector = (r.included attrL).map (shownAs r.locAttr)) :
    CopyOf E attrL (rs ++ [r]) (processContextElement env ctx ce w).2 := by
  have hdocs : docsOf E.id w = [] ∨ ∃ d, docsOf E.id w = [d] ∧ d.key = E.key := by
    rcases h with h | ⟨b, hb, hk, _⟩
    · exact .inl h
    · exact .inr ⟨b, hb, hk⟩
  cases @EntityName.Names.outcome env ctx E ce w hn (.inr ha) hdocs with
  | kept hs => exact (h.same hs).mono fun r' hr' => List.mem_append_left _ hr'
  | updated d w1 work hb hres hafter =>
    rcases h with h | ⟨b, hb', hk, r', hr', hc⟩
    · rw [h] at hb
      cases hb
    · obtain rfl : b = d := by
        rw [hb', List.cons.injEq] at hb
        exact hb.1
      exact .inr ⟨_, hafter, hk, r, by simp, hc.appended (hgrow r' hr') (hw r' hr') hr ha hce hres⟩
  | created loc _ _ hloc hafter =>
    exact .inr ⟨_, hafter, hn.createdKey, r, by simp, copies_created hr hce hloc⟩

/-- The elements of one notification. -/
theorem CopyOf.elements (ha : updateAction ctx.action = .append) (hn : ctx.notExistType = false) :
    ∀ {cerV : List ContextElementResponse} {rs rs' : List EntityDoc} {w : World}, CopyOf E attrL rs w →
    (∀ cer ∈ cerV, cString cer.entityId.id = E.id →
      cer.entityId.id = E.id ∧ cer.entityId.type = E.type ∧ ctx.servicePathV = E.servicePathV) →
    (cerV.filter fun cer => decide (cer.entityId.id = E.id)) = rs'.map (contextElementResponseOf attrL false) →
    (∀ r ∈ rs ++ rs', WholeArray r.attrs) → (rs ++ rs').Pairwise DocGrows →
    CopyOf E attrL (rs ++ rs')
      (processContextElements env ctx (cerV.map ContextElementResponse.contextElement) w).2
  | [], rs, rs', w, h, _, hshown, _, _ => by
    have hnil : rs' = [] := List.map_eq_nil_iff.1 hshown.symm
    rw [hnil, List.append_nil]
    exact h
  | cer :: cerV, rs, rs', w, h, hnames, hshown, hw, hgrow => by
    rw [List.forall_mem_cons] at hnames
    rw [List.filter_cons] at hshown
    -- after the first element
    have hone : ∃ rs1 rs2, rs ++ rs' = rs1 ++ rs2 ∧
        CopyOf E attrL rs1 (processContextElement env ctx cer.contextElement w).2 ∧
        (cerV.filter fun cer => decide (cer.entityId.id = E.id)) = rs2.map (contextElementResponseOf attrL false) := by
      by_cases hid : cer.entityId.id = E.id
      · rw [if_pos (decide_eq_true hid)] at hshown
        obtain ⟨r, rs2, rfl, hcer, hrest⟩ := List.map_eq_cons_iff.1 hshown.symm
        have hr : WholeArray r.attrs := hw r (by simp)
        refine ⟨rs ++ [r], rs2, by simp, ?_, hrest.symm⟩
        rw [List.pairwise_append] at hgrow
        obtain ⟨_, htype, hpath⟩ := hnames.1 (by rw [hid, E.cString_id])
        have hE : E.Names ctx cer.contextElement := ⟨hid, htype, hpath, hn⟩
        refine h.element hE ha (fun r' hr' => hw r' (List.mem_append_left _ hr')) hr
          (fun r' hr' => hgrow.2.2 r' hr' r (by simp)) ?_
        show cer.contextAttributeVector = _
        rw [← hcer, contextAttributeVector_shown hr]
      · rw [if_neg (by simpa using hid)] at hshown
        have hother : cString cer.entityId.id ≠ E.id := fun hread => hid (hnames.1 hread).1
        exact ⟨rs, rs', rfl, h.same (processContextElement_docsOf_other hother), hshown⟩
    obtain ⟨rs1, rs2, happ, h1, hrest⟩ := hone
    rw [happ] at hw hgrow ⊢
    rw [List.map_cons]
    unfold processContextElements
    split
    · rename_i e
      rw [e] at h1
      exact h1.mono fun r hr => List.mem_append_left _ hr
    · rename_i e
      rw [e] at h1
      have ih := CopyOf.elements ha hn h1 hnames.2 hrest hw hgrow
      split
      · rename_i e1
        rw [e1] at ih
        exact ih
      · rename_i e1
        rw [e1] at ih
        exact ih

theorem processContextElements_docsOf_other {id : String} : ∀ {ces : List ContextElement} {w : World},
    (∀ ce ∈ ces, cString ce.entityId.id ≠ id) → docsOf id (processContextElements env ctx ces w).2 = docsOf id w
  | [], _, _ => rfl
  | ce :: ces, w, h => by
    rw [List.forall_mem_cons] at h
    have hone := @processContextElement_docsOf_other env ctx id ce w h.1
    unfold processContextElements
    split
    · rename_i e
      rw [e] at hone
      exact hone
    · rename_i e
      rw [e] at hone
      have ih := (processContextElements_docsOf_other h.2).trans hone
      split
      · rename_i e1
        rw [e1] at ih
        exact ih
      · rename_i e1
        rw [e1] at ih
        exact ih

theorem mongoUpdateContext_docsOf_other {id : String} {ces : List ContextElement}
    (h : ∀ ce ∈ ces, cString ce.entityId.id ≠ id) :
    docsOf id (mongoUpdateContext env ctx ces w).2 = docsOf id w := by
  have hall := @processContextElements_docsOf_other env ctx id ces w h
  unfold mongoUpdateContext
  split
  · rfl
  · split
    · rename_i e
      rw [e] at hall
      exact hall
    · rename_i e
      rw [e] at hall
      exact hall

/-- **The copy is one of the documents that were shown**, if these grew one after the other. -/
theorem Replica.copies {ns : List (List ContextElementResponse)} (h : Replica env E ns w) {rs : List EntityDoc}
    (hshown : (ns.flatten.filter fun cer => decide (cer.entityId.id = E.id)) =
      rs.map (contextElementResponseOf attrL false))
    (hw : ∀ r ∈ rs, WholeArray r.attrs) (hgrow : rs.Pairwise DocGrows) : CopyOf E attrL rs w := by
  induction h generalizing rs with
  | start h => exact .inl h
  | updated ctx ces _ hothers ih => exact (ih hshown hw hgrow).same (mongoUpdateContext_docsOf_other hothers)
  | other _ he ih => exact (ih hshown hw hgrow).same (docsOf_entities he)
  | @notified ns w cerV tenant servicePathV now _ hnames ih =>
    rw [List.flatten_append, List.filter_append, eq_comm, List.map_eq_append_iff] at hshown
    obtain ⟨rs1, rs2, rfl, h1, h2⟩ := hshown
    rw [List.flatten_singleton] at h2
    have hbefore := ih h1.symm (fun r hr => hw r (List.mem_append_left _ hr)) (List.pairwise_append.1 hgrow).1
    unfold CopyOf
    rw [docsOf_entities (congrArg World.entities (mongoNotifyContext_world env cerV tenant servicePathV now w))]
    exact @CopyOf.elements env (notifyCtx tenant servicePathV now) E attrL (by show updateAction "append" = _; decide) rfl
      cerV rs1 rs2 w hbefore hnames h2.symm hw hgrow

end

end OrionBroker
