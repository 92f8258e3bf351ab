import OrionBroker.Update.Answers
import OrionBroker.Update.Selectors

/-!
# Entity deletion (MongoCommonUpdate.cpp:1476, :1588-1714)

A DELETE without attributes removes the documents its read query finds, one by one: for each document a
second selector is built from the `_id` that was found, with `$exists: false` for a type or a path that is
missing. On keys as `createEntity` builds them, without NUL, this selector takes one document only
(`selects_remove_iff`), so the loop takes away the documents found and nothing else (`removal_exact`).
-/

namespace OrionBroker

open Mongo

/-! ## The documents a request addresses -/

/-- A key as `createEntity` builds it (:1411-1424). -/
structure EntityKey.Built (key : EntityKey) : Prop where
  type : key.type ≠ some ""
  servicePath : ∀ p, key.servicePath = some p → CanonicalPath p

/-- The path itself or one below it; nothing is below `/`. -/
def PathAddressed (path q : String) : Prop :=
  q = path ∨ path ≠ "/" ∧ (path.toList ++ ['/']) <+: q.toList

instance (path q : String) : Decidable (PathAddressed path q) :=
  inferInstanceAs (Decidable (q = path ∨ path ≠ "/" ∧ (path.toList ++ ['/']) <+: q.toList))

/-- A request without path addresses the entities without path. -/
def KeyPathAddressed : Option String → Option String → Prop
  | none, q => q = none
  | some _, none => False
  | some path, some q => PathAddressed path q

instance : ∀ path q : Option String, Decidable (KeyPathAddressed path q)
  | none, q => inferInstanceAs (Decidable (q = none))
  | some _, none => inferInstanceAs (Decidable False)
  | some path, some q => inferInstanceAs (Decidable (PathAddressed path q))

/-- The keys an element is about: its id, its type when it gives one, and the path. -/
def KeyAddressed (ctx : Ctx) (en : EntityId) (key : EntityKey) : Prop :=
  key.id = en.id ∧ (en.type = "" ∨ key.type = some en.type) ∧
    KeyPathAddressed ctx.servicePathV.head? key.servicePath

instance (ctx : Ctx) (en : EntityId) (key : EntityKey) : Decidable (KeyAddressed ctx en key) :=
  inferInstanceAs (Decidable (_ ∧ _ ∧ _))

/-! ## The read selector -/

/-- No path begins with two slashes. -/
theorem not_two_slashes (p : ServicePath) : ¬ ['/', '/'] <+: p.chars := by
  unfold ServicePath.chars
  split
  · simp
  · rename_i hne
    obtain ⟨c, cs, e⟩ := List.exists_cons_of_ne_nil hne
    have hc := p.facts c (by simp [e])
    obtain ⟨x, t, rfl⟩ := List.exists_cons_of_ne_nil hc.ne
    intro h
    rw [e, joinPath, List.flatMap_cons, List.cons_append, List.cons_append] at h
    have hx := (List.cons_prefix_cons.1 (List.cons_prefix_cons.1 h).2).1
    exact slash_not_mem hc.plain (by simp [← hx])

/-- On canonical paths the regex of the read query is the path or a path below. -/
theorem pathBelow_iff {path q : String} (hq : CanonicalPath q) : PathBelow path q ↔ PathAddressed path q := by
  obtain ⟨p, hp⟩ := hq
  have hnl : q.toList ≠ path.toList ++ ['\n'] := by
    intro e
    have hm : '\n' ∈ p.chars := by rw [← hp, e]; simp
    rcases p.mem_chars hm with h | h | h
    · exact absurd h (by decide)
    · exact absurd h (by decide)
    · exact absurd h (by decide)
  unfold PathBelow PathAddressed
  rw [String.toList_inj]
  constructor
  · rintro (h | h | h)
    · exact .inl h
    · exact absurd h hnl
    · refine .inr ⟨?_, h⟩
      rintro rfl
      rw [hp] at h
      exact not_two_slashes p h
  · rintro (h | ⟨_, h⟩)
    · exact .inl h
    · exact .inr (.inr h)

section
variable {env : Env} {ctx : Ctx} {d : EntityDoc}

theorem selects_read_iff {en : EntityId} (hn : ctx.notExistType = false)
    (hp : ∀ p ∈ ctx.servicePathV, CanonicalPath p) (hd : d.key.Built) :
    env.selects (readSelector ctx en) d = true ↔ KeyAddressed ctx en d.key := by
  have htype : (∀ q ∈ (if en.type ≠ "" then [Query.field ["_id", "type"] (.eq (.str en.type))] else []),
      env.selects q d = true) ↔ (en.type = "" ∨ d.key.type = some en.type) := by
    by_cases ht : en.type = ""
    · simp [ht]
    · simp only [ht, ne_eq, not_false_eq_true, if_true, List.mem_singleton, forall_eq, false_or]
      rw [Env.selects, matches_type, decide_eq_true_iff]
  rw [readSelector, hn, selects_all, List.forall_mem_cons]
  simp only [Bool.false_eq_true, if_false, List.append_nil, List.forall_mem_append, List.mem_singleton,
    forall_eq]
  refine and_congr ?_ (and_congr htype ?_)
  · rw [Env.selects, matches_id, decide_eq_true_iff]
  · cases hs : ctx.servicePathV with
    | nil => rw [Env.selects, matches_noServicePath, decide_eq_true_iff]; rfl
    | cons path rest =>
      simp only [Env.selects, matches_servicePathRegex, List.head?_cons]
      cases hq : d.key.servicePath with
      | none => simp [KeyPathAddressed]
      | some q =>
        rw [Option.any_some, requestPathRegex_iff env (hp path (by simp [hs])),
          pathBelow_iff (hd.servicePath q hq)]
        rfl

/-! ## The remove selector -/

/-- The second selector takes the document whose `_id` it was built from, and no other. -/
theorem selects_remove_iff {key : EntityKey} (hk : key.Built) (hn : key.NoNul) :
    env.selects (removeSelector key) d = true ↔ d.key = key := by
  have htype : d.key.type = selectedType key ↔ d.key.type = key.type := by
    unfold selectedType
    cases ht : key.type with
    | none => simp
    | some t =>
      have hne : t ≠ "" := by rintro rfl; exact hk.type ht
      rw [strField_some, (hn.type t ht).cString, if_neg hne]
  have hpath : env.selects (if strField key.servicePath = "" then .field ["_id", "servicePath"] (.exists false)
      else .field ["_id", "servicePath"] (.eq (.str (strField key.servicePath)))) d = true ↔
      d.key.servicePath = key.servicePath := by
    cases hp : key.servicePath with
    | none => simp only [strField_none, if_true, Env.selects, matches_noServicePath, decide_eq_true_iff]
    | some p =>
      have hne : p ≠ "" := by
        rintro rfl
        obtain ⟨sp, hsp⟩ := hk.servicePath "" hp
        exact sp.chars_ne_nil hsp.symm
      rw [strField_some, (hk.servicePath p hp).noNul.cString, if_neg hne, Env.selects, matches_servicePath,
        decide_eq_true_iff]
  rw [removeSelector, selects_all]
  simp only [List.forall_mem_cons, List.not_mem_nil, IsEmpty.forall_iff, implies_true, and_true]
  rw [selectedType_iff, htype, hpath, Env.selects, matches_id, decide_eq_true_iff, hn.id.cString]
  constructor
  · rintro ⟨hi, ht, hs⟩
    cases hkey : d.key
    simp_all
  · rintro rfl
    exact ⟨rfl, rfl, rfl⟩

end

/-! ## The loop -/

section
variable {env : Env} {ctx : Ctx} {ce : ContextElement}

/-- The answer for a removed document. -/
def removedResponse (r : EntityDoc) : ContextElementResponse :=
  { entityId := documentEntity r.key, statusCode := ⟨.ok, ""⟩ }

/-- One iteration takes away the document it is at. -/
theorem processDocument_removes {r : EntityDoc} {w : World} (ha : updateAction ctx.action = .delete)
    (hv : ce.contextAttributeVector = []) (ho : w.outcomes = []) (hr : r.key.Built) (hn : r.key.NoNul) :
    (processDocument env ctx ce r w).1 = removedResponse r ∧
    (processDocument env ctx ce r w).2.1 = true ∧
    (processDocument env ctx ce r w).2.2.outcomes = [] ∧
    (processDocument env ctx ce r w).2.2.entities.docs = w.entities.docs.filter fun d => d.key ≠ r.key := by
  have hcall : w.call = (.ok, w) := by unfold World.call; rw [ho]
  have hdel : updateAction ctx.action = .delete ∧ ce.contextAttributeVector.length = 0 := ⟨ha, by simp [hv]⟩
  unfold processDocument removeEntity
  simp only [hdel, and_self, if_true, hcall, Outcome.writeError]
  refine ⟨rfl, trivial, ho, ?_⟩
  simp only [World.emit, Collection.remove]
  apply List.filter_congr
  intro d _
  have h := @selects_remove_iff env d r.key hr hn
  by_cases hk : d.key = r.key
  · simp [hk, h.2 hk]
  · have hs : env.selects (removeSelector r.key) d = false := by
      rw [← Bool.not_eq_true]; exact fun e => hk (h.1 e)
    simp [hk, hs]

/-- The whole loop takes away the documents of the cursor, and answers 200 for each. -/
theorem processDocuments_removes (ha : updateAction ctx.action = .delete)
    (hv : ce.contextAttributeVector = []) (rs : List EntityDoc) (w : World) (ho : w.outcomes = [])
    (hr : ∀ r ∈ rs, r.key.Built) (hn : ∀ r ∈ rs, r.key.NoNul) :
    (processDocuments env ctx ce rs w).1 = rs.map removedResponse ∧
    (processDocuments env ctx ce rs w).2.1 = rs.length ∧
    (processDocuments env ctx ce rs w).2.2.entities.docs =
      w.entities.docs.filter fun d => d.key ∉ rs.map EntityDoc.key := by
  induction rs generalizing w with
  | nil => simp [processDocuments]
  | cons r rs ih =>
    obtain ⟨h1, h2, h3, h4⟩ := @processDocument_removes env ctx ce r w ha hv ho (hr r (by simp)) (hn r (by simp))
    obtain ⟨i1, i2, i3⟩ := ih _ h3 (fun r' hr' => hr r' (by simp [hr'])) (fun r' hr' => hn r' (by simp [hr']))
    refine ⟨?_, ?_, ?_⟩
    · simp only [processDocuments, h1, i1, List.map_cons]
    · simp only [processDocuments, h2, i2, if_true, List.length_cons]
    · rw [processDocuments_cons_world, i3, h4, List.filter_filter]
      apply List.filter_congr
      intro d _
      rw [Bool.eq_iff_iff, Bool.and_eq_true, decide_eq_true_iff, decide_eq_true_iff, decide_eq_true_iff,
        List.map_cons, List.mem_cons, not_or]
      exact and_comm

/-- The documents found are the documents addressed. -/
theorem foundDocuments_eq {w : World} (hn : ctx.notExistType = false)
    (hp : ∀ p ∈ ctx.servicePathV, CanonicalPath p) (hw : ∀ d ∈ w.entities.docs, d.key.Built) :
    foundDocuments env ctx ce w = w.entities.docs.filter fun d => KeyAddressed ctx ce.entityId d.key := by
  unfold foundDocuments Collection.find
  apply List.filter_congr
  intro d hd
  rw [Bool.eq_iff_iff, selects_read_iff hn hp (hw d hd), decide_eq_true_iff]

theorem notFoundResponse_bad (ce : ContextElement) : (notFoundResponse env ctx ce).statusCode.code ≠ .ok := by
  unfold notFoundResponse
  split <;> simp [buildGeneralErrorResponse]

/-- **Entity deletion is exact.** With keys as `createEntity` builds them, a DELETE element that is not a
pattern, without attributes, with canonical paths and all calls succeeding, leaves exactly the documents
it does not address, as they were; the answers 200 are one for each document removed. What it addresses has no NUL in
id and type. -/
theorem removal_exact {w : World} (ha : updateAction ctx.action = .delete)
    (hv : ce.contextAttributeVector = []) (hn : ctx.notExistType = false)
    (hpat : isTrue ce.entityId.isPattern = false) (hp : ∀ p ∈ ctx.servicePathV, CanonicalPath p)
    (ho : w.outcomes = []) (hw : ∀ d ∈ w.entities.docs, d.key.Built)
    (hnul : ∀ d ∈ w.entities.docs, KeyAddressed ctx ce.entityId d.key → d.key.NoNul) :
    (processContextElement env ctx ce w).2.entities.docs =
      w.entities.docs.filter (fun d => ¬ KeyAddressed ctx ce.entityId d.key) ∧
    ∃ cers, (processContextElement env ctx ce w).1 = some cers ∧
      cers.filter (fun cer => cer.statusCode.code = .ok) =
        (w.entities.docs.filter fun d => KeyAddressed ctx ce.entityId d.key).map removedResponse := by
  have hcall : w.call = (.ok, w) := by unfold World.call; rw [ho]
  have hempty : emptyAttribute ctx ce = none := by simp [emptyAttribute, ha]
  have hfound := @foundDocuments_eq env ctx ce w hn hp hw
  have hbuilt : ∀ r ∈ foundDocuments env ctx ce w, r.key.Built :=
    fun r hr => hw r (List.mem_of_mem_filter hr)
  have hwhole : ∀ r ∈ foundDocuments env ctx ce w, r.key.NoNul := by
    intro r hr
    rw [hfound] at hr
    exact hnul r (List.mem_filter.1 hr).1 (of_decide_eq_true (List.mem_filter.1 hr).2)
  obtain ⟨h1, h2, h3⟩ := @processDocuments_removes env ctx ce ha hv _ w ho hbuilt hwhole
  -- a document of the collection has the key of a found one exactly when it is addressed
  have hkeys : w.entities.docs.filter (fun d => d.key ∉ (foundDocuments env ctx ce w).map EntityDoc.key) =
      w.entities.docs.filter fun d => ¬ KeyAddressed ctx ce.entityId d.key := by
    apply List.filter_congr
    intro d hd
    rw [decide_eq_decide, not_iff_not, List.mem_map]
    constructor
    · rintro ⟨r, hr, hk⟩
      rw [hfound] at hr
      rw [← hk]
      simpa using (List.mem_filter.1 hr).2
    · intro h
      exact ⟨d, by rw [hfound]; exact List.mem_filter.2 ⟨hd, by simpa using h⟩, rfl⟩
  have hall : ∀ rs : List EntityDoc, (rs.map removedResponse).filter (fun cer => cer.statusCode.code = .ok) =
      rs.map removedResponse := by
    intro rs
    rw [List.filter_eq_self]
    simp [removedResponse]
  unfold processContextElement
  simp only [hpat, hempty, hcall, Outcome.queryError, Bool.false_eq_true, if_false]
  rw [h1, h2]
  by_cases hz : (foundDocuments env ctx ce w).length = 0
  · have hne : updateAction ctx.action ≠ .append := by rw [ha]; decide
    rw [if_pos hz, if_pos hne]
    refine ⟨h3.trans hkeys, _, rfl, ?_⟩
    rw [List.filter_append, hall, hfound, List.filter_cons_of_neg (by simpa using notFoundResponse_bad ce),
      List.filter_nil, List.append_nil]
  · rw [if_neg hz]
    exact ⟨h3.trans hkeys, _, rfl, by rw [hall, hfound]⟩

/-- `Room` four times, with and without type and path, and one in `/ab`. -/
def fiveRooms : Collection EntityDoc EntityKey EntityDoc.key where
  docs := [
    { key := ⟨"Room", some "T", some "/a"⟩ }, { key := ⟨"Room", none, some "/a"⟩ },
    { key := ⟨"Room", some "T", some "/a/b"⟩ }, { key := ⟨"Room", some "T", none⟩ },
    { key := ⟨"Room", some "T", some "/ab"⟩ }]
  nodup := by decide

theorem fiveRooms_built : ∀ d ∈ fiveRooms.docs, d.key.Built := by
  have hpath : ∀ d ∈ fiveRooms.docs, d.key.type ≠ some "" ∧
      d.key.servicePath ∈ [none, some "/a", some "/a/b", some "/ab"] := by decide
  intro d hd
  obtain ⟨ht, hp⟩ := hpath d hd
  refine ⟨ht, fun p e => ?_⟩
  rw [e] at hp
  simp only [List.mem_cons, Option.some.injEq, List.not_mem_nil, or_false, reduceCtorEq, false_or] at hp
  rcases hp with rfl | rfl | rfl
  · exact ⟨⟨["a".toList], by decide, by decide⟩, by decide⟩
  · exact ⟨⟨["a".toList, "b".toList], by decide, by decide⟩, by decide⟩
  · exact ⟨⟨["ab".toList], by decide, by decide⟩, by decide⟩

/-- A DELETE of `Room` in `/a` takes three of the five. -/
theorem removal_exact_fiveRooms :
    (processContextElement (Env.plain fun _ _ => false) { action := "DELETE", servicePathV := ["/a"] }
        { entityId := { id := "Room" } } { entities := fiveRooms }).2.entities.docs.map EntityDoc.key =
      [⟨"Room", some "T", none⟩, ⟨"Room", some "T", some "/ab"⟩] := by
  have h := (@removal_exact (Env.plain fun _ _ => false) { action := "DELETE", servicePathV := ["/a"] }
    { entityId := { id := "Room" } } { entities := fiveRooms } (by decide) rfl rfl (by decide)
    (by
      intro p hp
      rw [List.mem_singleton.1 hp]
      exact ⟨⟨["a".toList], by decide, by decide⟩, by decide⟩)
    rfl fiveRooms_built (fun d hd _ => (by decide : ∀ d ∈ fiveRooms.docs, d.key.NoNul) d hd)).1
  rw [h]
  decide +kernel

/-- **A pattern removes nothing.** With `isPattern` true the element is answered 501, although the
collection holds a document with its id, its type and its path. -/
theorem pattern_removes_nothing :
    KeyAddressed { action := "DELETE", servicePathV := ["/a"] } { id := "Room", type := "T", isPattern := "true" }
      ⟨"Room", some "T", some "/a"⟩ ∧
    (processContextElement (Env.plain fun _ _ => false) { action := "DELETE", servicePathV := ["/a"] }
        { entityId := { id := "Room", type := "T", isPattern := "true" } } { entities := fiveRooms }).2.entities.docs =
      fiveRooms.docs ∧
    (processContextElement (Env.plain fun _ _ => false) { action := "DELETE", servicePathV := ["/a"] }
        { entityId := { id := "Room", type := "T", isPattern := "true" } } { entities := fiveRooms }).1.map
          (List.map fun cer => cer.statusCode.code) = some [.notImplemented] := by
  decide +kernel

end

end OrionBroker
