import OrionBroker.Update.Steps

/-!
# What the status of a response says about the database

* An existing document: a status other than 200 means that nothing was written and nothing sent while
  the document was processed, and no notification goes out before its update succeeded
  (`document_atomic`). The lookups of subscriptions come before the write.
* A created entity: the lookups come after the insert, so a failing lookup answers an error for an entity
  that was stored (`created_truthful_iff`).
-/

namespace OrionBroker

open Mongo

/-! ## The document loop -/

theorem processDocuments_append (env : Env) (ctx : Ctx) (ce : ContextElement) (rs : List EntityDoc) :
    ∀ (pre : List EntityDoc) (w : World),
      (processDocuments env ctx ce (pre ++ rs) w).1 = (processDocuments env ctx ce pre w).1 ++
        (processDocuments env ctx ce rs (processDocuments env ctx ce pre w).2.2).1
  | [], w => rfl
  | r :: pre, w => by
    simp [processDocuments, processDocuments_append env ctx ce rs pre]

theorem processDocuments_length (env : Env) (ctx : Ctx) (ce : ContextElement) :
    ∀ (rs : List EntityDoc) (w : World), (processDocuments env ctx ce rs w).1.length = rs.length
  | [], w => rfl
  | r :: rs, w => by simp [processDocuments, processDocuments_length env ctx ce rs]

/-- The response for a document stands where the document stands in the cursor. -/
theorem processDocuments_get (env : Env) (ctx : Ctx) (ce : ContextElement) (pre : List EntityDoc)
    (r : EntityDoc) (post : List EntityDoc) (w : World) :
    (processDocuments env ctx ce (pre ++ r :: post) w).1[pre.length]? =
      some (processDocument env ctx ce r (processDocuments env ctx ce pre w).2.2).1 := by
  have hl := processDocuments_length env ctx ce pre w
  rw [processDocuments_append, List.getElem?_append_right (by omega), hl, Nat.sub_self]
  rfl

/-- Past the checks and the query, the answer begins with the responses of the loop. -/
theorem processContextElement_responses {env : Env} {ctx : Ctx} {ce : ContextElement} {w : World}
    (hp : isTrue ce.entityId.isPattern = false) (he : emptyAttribute ctx ce = none)
    (hq : w.call.1.queryError = none) {cers : List ContextElementResponse}
    (h : (processContextElement env ctx ce w).1 = some cers) :
    (processDocuments env ctx ce (foundDocuments env ctx ce w) w.call.2).1 <+: cers := by
  unfold processContextElement at h
  simp only [hp, he, hq, Bool.false_eq_true, if_false] at h
  split at h
  · split at h
    · cases h; exact List.prefix_append _ _
    · split at h
      · cases h
      · cases h; exact List.prefix_append _ _
  · cases h; exact List.prefix_rfl

/-- The answer for a document of the cursor is the one of its iteration. -/
theorem processContextElement_get {env : Env} {ctx : Ctx} {ce : ContextElement} {w : World}
    (hp : isTrue ce.entityId.isPattern = false) (he : emptyAttribute ctx ce = none)
    (hq : w.call.1.queryError = none) {cers : List ContextElementResponse}
    (h : (processContextElement env ctx ce w).1 = some cers) {pre post : List EntityDoc} {r : EntityDoc}
    (hd : foundDocuments env ctx ce w = pre ++ r :: post) :
    cers[pre.length]? = some (processDocument env ctx ce r (processDocuments env ctx ce pre w.call.2).2.2).1 := by
  obtain ⟨t, rfl⟩ := processContextElement_responses hp he hq h
  have hget := processDocuments_get env ctx ce pre r post w.call.2
  rw [← hd] at hget
  have hlt : pre.length < (processDocuments env ctx ce (foundDocuments env ctx ce w) w.call.2).1.length := by
    rw [processDocuments_length, hd]; simp
  rw [List.getElem?_append_left hlt, hget]

/-- Processing `r` from `w0` to `w1`, answered by `cer`: a status other than 200 means that nothing was
written and nothing sent, and every notification comes after the update of `r`. -/
def Atomic (r : EntityDoc) (cer : ContextElementResponse) (w0 w1 : World) : Prop :=
  ∃ seg, w1.trace = w0.trace ++ seg ∧
    (cer.statusCode.code ≠ .ok → w1.entities = w0.entities ∧ seg = []) ∧
    (∀ before n after, seg = before ++ .notify n :: after → .entityUpdate r.key ∈ before)

/-- One iteration of the loop. -/
theorem processDocument_atomic (env : Env) (ctx : Ctx) (ce : ContextElement) (r : EntityDoc) (w : World) :
    Atomic r (processDocument env ctx ce r w).1 w (processDocument env ctx ce r w).2.2 := by
  have hnil : ∀ before n after, ([] : List Event) = before ++ .notify n :: after →
      Event.entityUpdate r.key ∈ before := by simp
  cases processDocument_step env ctx ce r w with
  | removed _ _ hs _ ht =>
    refine ⟨_, ht, fun h => absurd hs h, ?_⟩
    rintro (_ | ⟨e, before⟩) n after h
    · cases h
    · simp at h
  | removeFailed _ _ _ hs => exact ⟨[], by simp [hs.trace], fun _ => ⟨hs.entities, rfl⟩, hnil⟩
  | failed _ _ _ hs => exact ⟨[], by simp [hs.trace], fun _ => ⟨hs.entities, rfl⟩, hnil⟩
  | unmodified _ _ _ hc hs => exact ⟨[], by simp [hs.trace], fun h => absurd hc h, hnil⟩
  | updateFailed _ _ _ _ hs => exact ⟨[], by simp [hs.trace], fun _ => ⟨hs.entities, rfl⟩, hnil⟩
  | updated _ _ sent _ _ hc _ ht _ =>
    refine ⟨_, ht, fun h => absurd hc h, ?_⟩
    -- the first event is the update, so a notification has it before
    rintro (_ | ⟨e, before⟩) n after h
    · cases h
    · rw [List.cons_append, List.cons.injEq] at h
      rw [← h.1]; simp

/-- **Documents are updated atomically.** Take any document `r` of the cursor of an element, and the state
`w0` the loop reaches it in. The response of the element for `r` is the one computed there, and the
iteration is `Atomic`, whatever the outcomes of the calls that `w` holds. -/
theorem document_atomic {env : Env} {ctx : Ctx} {ce : ContextElement} {w : World}
    (hp : isTrue ce.entityId.isPattern = false) (he : emptyAttribute ctx ce = none)
    (hq : w.call.1.queryError = none) {cers : List ContextElementResponse}
    (h : (processContextElement env ctx ce w).1 = some cers) {pre post : List EntityDoc} {r : EntityDoc}
    (hd : foundDocuments env ctx ce w = pre ++ r :: post) :
    let w0 := (processDocuments env ctx ce pre w.call.2).2.2
    cers[pre.length]? = some (processDocument env ctx ce r w0).1 ∧
      Atomic r (processDocument env ctx ce r w0).1 w0 (processDocument env ctx ce r w0).2.2 :=
  ⟨processContextElement_get hp he hq h hd, processDocument_atomic env ctx ce r _⟩

/-- A room without service path. -/
def oneRoom : Collection EntityDoc EntityKey EntityDoc.key where
  docs := [{ key := ⟨"Room", some "T", none⟩, attrs := [{ name := some "t", value := some (.str "1") }] }]
  nodup := by decide

/-- An UPDATE of an attribute the room does not have fails, atomically. -/
theorem oneRoom_failed_update_atomic :
    (processDocument (Env.plain fun _ _ => false) { action := "UPDATE" }
        { entityId := { id := "Room" }, contextAttributeVector := [{ name := "u", value := "9" }] }
        { key := ⟨"Room", some "T", none⟩, attrs := [{ name := some "t", value := some (.str "1") }] }
        { entities := oneRoom }).1.statusCode.code = .invalidParameter ∧
    Atomic { key := ⟨"Room", some "T", none⟩, attrs := [{ name := some "t", value := some (.str "1") }] }
      (processDocument (Env.plain fun _ _ => false) { action := "UPDATE" }
        { entityId := { id := "Room" }, contextAttributeVector := [{ name := "u", value := "9" }] }
        { key := ⟨"Room", some "T", none⟩, attrs := [{ name := some "t", value := some (.str "1") }] }
        { entities := oneRoom }).1
      { entities := oneRoom }
      (processDocument (Env.plain fun _ _ => false) { action := "UPDATE" }
        { entityId := { id := "Room" }, contextAttributeVector := [{ name := "u", value := "9" }] }
        { key := ⟨"Room", some "T", none⟩, attrs := [{ name := some "t", value := some (.str "1") }] }
        { entities := oneRoom }).2.2 :=
  ⟨by decide +kernel,
   (@document_atomic (Env.plain fun _ _ => false) { action := "UPDATE" }
    { entityId := { id := "Room" }, contextAttributeVector := [{ name := "u", value := "9" }] }
    { entities := oneRoom } (by decide) (by decide +kernel) (by decide) _ rfl [] [] _
    (by decide +kernel)).2⟩

/-! ## Creation -/

/-- The outcome of the call after the next `i`. -/
def World.outcomeAt (w : World) (i : Nat) : Outcome := w.outcomes.getD i .ok

theorem World.call_fst (w : World) : w.call.1 = w.outcomeAt 0 := by
  unfold World.call World.outcomeAt
  cases w.outcomes <;> rfl

theorem World.call_outcomeAt (w : World) (i : Nat) : w.call.2.outcomeAt i = w.outcomeAt (i + 1) := by
  unfold World.call World.outcomeAt
  cases h : w.outcomes <;> simp [h]

/-- The lookups all succeed, or the first failure is reported. -/
theorem createdTriggers_ok_iff (env : Env) (ctx : Ctx) (en : EntityId) :
    ∀ (caV : List ContextAttribute) (subs : SubsMap) (w : World),
      (∃ s, (createdTriggers env ctx en caV subs w).1 = .ok s) ↔
        ∀ i < caV.length, (w.outcomeAt i).queryError = none
  | [], subs, w => by simp [createdTriggers]
  | ca :: caV, subs, w => by
    unfold createdTriggers
    rw [addTriggeredSubscriptions]
    simp only [World.call_fst]
    cases ho : (w.outcomeAt 0).queryError with
    | some what =>
      simp only [List.length_cons]
      constructor
      · rintro ⟨s, hs⟩; cases hs
      · intro h; have := h 0 (by omega); rw [ho] at this; cases this
    | none =>
      simp only [createdTriggers_ok_iff env ctx en caV, World.call_outcomeAt, List.length_cons]
      constructor
      · rintro h (_ | i) hi
        · exact ho
        · exact h i (by omega)
      · intro h i hi; exact h (i + 1) (by omega)

/-- The calls before the insert: the index on the location, when the server has one. -/
def indexCalls (env : Env) : Nat := if env.mongoLocationCapable then 1 else 0

/-- What `createEntity` needs to insert: the index call and the insert go through, the attributes are
legal, their location is readable, and no entity has the key yet. -/
structure Creatable (env : Env) (ctx : Ctx) (en : EntityId) (attrsV : List ContextAttribute) (w : World) :
    Prop where
  index : env.mongoLocationCapable = true → (w.outcomeAt 0).writeError = none
  legal : legalIdUsageVector attrsV = true
  location : ∃ loc, processLocation env.atof attrsV = .ok loc
  insert : (w.outcomeAt (indexCalls env)).writeError = none
  fresh : createdKey ctx en ∉ w.entities.docs.map EntityDoc.key

theorem ensureLocationIndex_spec (env : Env) (w : World) :
    ((ensureLocationIndex env w).1 = true ↔
      (env.mongoLocationCapable = true → (w.outcomeAt 0).writeError = none)) ∧
    ∀ i, (ensureLocationIndex env w).2.outcomeAt i = w.outcomeAt (i + indexCalls env) := by
  unfold ensureLocationIndex indexCalls
  cases env.mongoLocationCapable with
  | false => simp
  | true => simp [World.call_fst, World.call_outcomeAt]

/-- A fresh key is inserted. -/
theorem insert_isSome_iff (c : Collection EntityDoc EntityKey EntityDoc.key) (d : EntityDoc) :
    (∃ c', c.insert d = some c') ↔ d.key ∉ c.docs.map EntityDoc.key := by
  unfold Collection.insert
  split
  · rename_i h
    constructor
    · rintro ⟨c', hc⟩; cases hc
    · intro hn; exact absurd h hn
  · rename_i h; exact ⟨fun _ => h, fun _ => ⟨_, rfl⟩⟩

theorem insertEntity_spec (env : Env) (ctx : Ctx) (doc : EntityDoc) (w : World) :
    ((insertEntity env ctx doc w).1 = .created ↔
      (w.outcomeAt 0).writeError = none ∧ doc.key ∉ w.entities.docs.map EntityDoc.key) ∧
    ∀ i, (insertEntity env ctx doc w).2.outcomeAt i = w.outcomeAt (i + 1) := by
  have he := w.call_same.entities
  have ho := fun i => w.call_outcomeAt i
  unfold insertEntity
  simp only [World.call_fst]
  cases hw : (w.outcomeAt 0).writeError with
  | some what => simp [ho]
  | none =>
    simp only [true_and]
    cases hi : w.call.2.entities.insert doc with
    | none =>
      refine ⟨?_, ho⟩
      rw [← insert_isSome_iff, ← he, hi]
      simp
    | some entities =>
      refine ⟨?_, ho⟩
      rw [← insert_isSome_iff, ← he, hi]
      simp

theorem createEntity_spec (env : Env) (ctx : Ctx) (en : EntityId) (attrsV : List ContextAttribute)
    (w : World) :
    ((createEntity env ctx en attrsV w).1 = .created ↔ Creatable env ctx en attrsV w) ∧
    (Creatable env ctx en attrsV w → ∀ i, (createEntity env ctx en attrsV w).2.outcomeAt i =
      w.outcomeAt (i + (indexCalls env + 1))) := by
  have hspec := ensureLocationIndex_spec env w
  have hsame := ensureLocationIndex_same env w
  unfold createEntity
  split
  · rename_i w1 e
    rw [e] at hspec
    have hno : ¬ Creatable env ctx en attrsV w := fun h => by have := hspec.1.2 h.index; cases this
    exact ⟨by simp [hno], fun h => absurd h hno⟩
  · rename_i w1 e
    rw [e] at hspec hsame
    have hidx := hspec.1.1 rfl
    split
    · rename_i hl
      have hno : ¬ Creatable env ctx en attrsV w := fun h => by rw [h.legal] at hl; cases hl
      exact ⟨by simp [hno], fun h => absurd h hno⟩
    · rename_i hl
      split
      · rename_i err hloc
        have hno : ¬ Creatable env ctx en attrsV w := fun h => by
          obtain ⟨loc, hok⟩ := h.location; rw [hok] at hloc; cases hloc
        exact ⟨by simp [hno], fun h => absurd h hno⟩
      · rename_i loc hloc
        obtain ⟨hins, hout⟩ := insertEntity_spec env ctx (createdDoc ctx en attrsV loc) w1
        have ho : ∀ i, w1.outcomeAt i = w.outcomeAt (i + indexCalls env) := hspec.2
        have hent : w1.entities = w.entities := hsame.entities
        rw [hins, ho, hent, Nat.zero_add]
        refine ⟨⟨fun h => ⟨hidx, by simpa using hl, ⟨loc, hloc⟩, h.1, h.2⟩, fun h => ⟨h.insert, h.fresh⟩⟩,
          fun _ i => ?_⟩
        rw [hout, ho]
        congr 1
        omega

/-- The entity was inserted between the two states. -/
def Inserted (key : EntityKey) (w w' : World) : Prop :=
  key ∉ w.entities.docs.map EntityDoc.key ∧ key ∈ w'.entities.docs.map EntityDoc.key

theorem createEntity_inserted_iff (env : Env) (ctx : Ctx) (en : EntityId) (attrsV : List ContextAttribute)
    (w : World) :
    Inserted (createdKey ctx en) w (createEntity env ctx en attrsV w).2 ↔ Creatable env ctx en attrsV w := by
  have hs := createEntity_step env ctx en attrsV w
  rw [← (createEntity_spec env ctx en attrsV w).1]
  generalize (createEntity env ctx en attrsV w).1 = c at hs
  have hsame : World.Same w (createEntity env ctx en attrsV w).2 →
      ¬ Inserted (createdKey ctx en) w (createEntity env ctx en attrsV w).2 := by
    rintro h ⟨hn, hm⟩
    rw [h.entities] at hm
    exact hn hm
  cases hs with
  | escaped hs => simpa using hsame hs
  | failed _ hs => simpa using hsame hs
  | created loc _ _ hi _ =>
    have hf := (insert_isSome_iff _ _).1 ⟨_, hi⟩
    refine ⟨fun _ => rfl, fun _ => ⟨hf, ?_⟩⟩
    unfold Collection.insert at hi
    split at hi
    · cases hi
    · have hi := Option.some.inj hi
      rw [← hi]
      simp [createdDoc]

/-- An APPEND that finds nothing answers with the creation. -/
theorem processContextElement_creation {env : Env} {ctx : Ctx} {ce : ContextElement} {w : World}
    (ha : updateAction ctx.action = .append) (hp : isTrue ce.entityId.isPattern = false)
    (he : emptyAttribute ctx ce = none) (hq : w.call.1.queryError = none)
    (hf : foundDocuments env ctx ce w = []) :
    processContextElement env ctx ce w =
      ((createdResponse env ctx ce w.call.2).1.map fun cer => [cer], (createdResponse env ctx ce w.call.2).2) := by
  unfold processContextElement
  simp only [hp, he, hq, hf, ha, processDocuments, Bool.false_eq_true, if_false, if_true, ne_eq, not_true_eq_false,
    List.nil_append]
  split
  · rename_i e; rw [e]; rfl
  · rename_i e; rw [e]; rfl

/-- The answer is 200 when the insert and all the lookups went through. -/
theorem createdResponse_ok_iff (env : Env) (ctx : Ctx) (ce : ContextElement) (w : World) :
    (∃ cer, (createdResponse env ctx ce w).1 = some cer ∧ cer.statusCode.code = .ok) ↔
      Creatable env ctx ce.entityId ce.contextAttributeVector w ∧
      ∀ i < ce.contextAttributeVector.length,
        (w.outcomeAt (i + (indexCalls env + 1))).queryError = none := by
  obtain ⟨hc, hout⟩ := createEntity_spec env ctx ce.entityId ce.contextAttributeVector w
  unfold createdResponse
  simp only
  split
  · rename_i w1 e
    rw [e] at hc
    have hno := mt hc.2 (by simp)
    simp [hno]
  · rename_i err w1 e
    rw [e] at hc
    have hno := mt hc.2 (by simp)
    simp [hno]
  · rename_i w1 e
    rw [e] at hc hout
    have hyes := hc.1 rfl
    have ho := hout hyes
    have ht := createdTriggers_ok_iff env ctx ce.entityId ce.contextAttributeVector [] w1
    simp only [ho] at ht
    rw [← ht]
    split
    · rename_i e1; rw [e1]; simp
    · rename_i e1; rw [e1]; simp [hyes]

/-- **When creation answers truthfully.** For an APPEND that finds no document, "200 if and only if the
entity was inserted" holds exactly when the insert does not happen or every lookup of subscriptions after
it succeeds. -/
theorem created_truthful_iff {env : Env} {ctx : Ctx} {ce : ContextElement} {w : World}
    (ha : updateAction ctx.action = .append) (hp : isTrue ce.entityId.isPattern = false)
    (he : emptyAttribute ctx ce = none) (hq : w.call.1.queryError = none)
    (hf : foundDocuments env ctx ce w = []) :
    ((∃ cer, (processContextElement env ctx ce w).1 = some [cer] ∧ cer.statusCode.code = .ok) ↔
      Inserted (createdKey ctx ce.entityId) w (processContextElement env ctx ce w).2) ↔
    (Creatable env ctx ce.entityId ce.contextAttributeVector w.call.2 →
      ∀ i < ce.contextAttributeVector.length,
        (w.outcomeAt (i + (indexCalls env + 2))).queryError = none) := by
  rw [processContextElement_creation ha hp he hq hf]
  have h200 : (∃ cer, (createdResponse env ctx ce w.call.2).1.map (fun cer => [cer]) = some [cer] ∧
      cer.statusCode.code = .ok) ↔
      Creatable env ctx ce.entityId ce.contextAttributeVector w.call.2 ∧
      ∀ i < ce.contextAttributeVector.length,
        (w.outcomeAt (i + (indexCalls env + 2))).queryError = none := by
    have h := createdResponse_ok_iff env ctx ce w.call.2
    simp only [World.call_outcomeAt] at h
    rw [show indexCalls env + 2 = indexCalls env + 1 + 1 from rfl]
    simp only [← Nat.add_assoc] at h ⊢
    rw [← h]
    simp
  have hins : Inserted (createdKey ctx ce.entityId) w (createdResponse env ctx ce w.call.2).2 ↔
      Creatable env ctx ce.entityId ce.contextAttributeVector w.call.2 := by
    rw [← createEntity_inserted_iff, Inserted, Inserted, createdResponse_entities, w.call_same.entities]
  simp only [h200, hins]
  constructor
  · intro h hc; exact (h.2 hc).2
  · intro h; exact ⟨fun hc => hc.1, fun hc => ⟨hc, h hc⟩⟩

def roomAppend : ContextElement where
  entityId := { id := "Room", type := "T" }
  contextAttributeVector := [{ name := "t", value := "9" }]

theorem roomAppend_truthful :
    (∃ cer, (processContextElement (Env.plain fun _ _ => false) { action := "APPEND" } roomAppend {}).1 =
        some [cer] ∧ cer.statusCode.code = .ok) ↔
      Inserted ⟨"Room", some "T", none⟩ {}
        (processContextElement (Env.plain fun _ _ => false) { action := "APPEND" } roomAppend {}).2 :=
  (@created_truthful_iff (Env.plain fun _ _ => false) { action := "APPEND" } roomAppend {}
    (by decide) (by decide) (by decide +kernel) (by decide) (by decide +kernel)).2 fun _ _ _ => rfl

/-- **An error for an entity that was stored.** The read, the index and the insert succeed, the lookup of
subscriptions fails: the answer is an internal error, and `Room` is in the collection. -/
theorem roomAppend_lookup_fails :
    (processContextElement (Env.plain fun _ _ => false) { action := "APPEND" } roomAppend
        { outcomes := [.ok, .ok, .ok, .nullCursor] }).1.map (List.map fun cer => cer.statusCode.code) =
      some [.receiverInternalError] ∧
    (processContextElement (Env.plain fun _ _ => false) { action := "APPEND" } roomAppend
        { outcomes := [.ok, .ok, .ok, .nullCursor] }).2.entities.docs.map EntityDoc.key =
      [⟨"Room", some "T", none⟩] := by
  decide +kernel

end OrionBroker
