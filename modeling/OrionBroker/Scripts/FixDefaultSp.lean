import OrionBroker.Lib.Scan
import OrionBroker.Scripts.MergeDefaultSp

/-!
# Giving entities the default service path (scripts/managedb/fix_default_sp.py)

Entities of older releases have no service path. The script puts them under "/": a copy with the path is inserted
and the original removed. An entity that has a twin under "/" already is left as it is; the twins are looked for in
a scan of their own before.

| here | there |
| --- | --- |
| `Dict`                              | the dictionaries `seen` and `dups`: `d[id][type]` |
| `Dict.has`                          | `in_seen` (:48) and `in_dups` (:66), less the message |
| `Dict.put`                          | `add_seen` (:61) and `add_dups` (:72) |
| `detect`, `getSpDups`               | `get_sp_dups` (:79) |
| `fixDoc`                            | an iteration of the loop of `fix_null_sps` (:124-148) |
| `Run`                               | the script (:165-168) |

`find()` gives the documents there are, in any order, and may give those that are inserted during the scan (`Scan`).
A query that fails ends the script, a write that fails is caught. The lines printed are left out, and of the script's
counters those that are only printed.

* `inDups_iff`: what the first scan finds.
* `fixDoc_keeps`, `run_keeps`: no document is lost, whatever fails.
* `fixDoc_migrates`, `run_migrates`: what becomes of the collection when nothing fails.
-/

namespace OrionBroker.FixDefaultSp

open Mongo MergeDefaultSp

/-! ## The script -/

abbrev Dict (α : Type) := String → Option (String → Option α)

def Dict.has {α : Type} (d : Dict α) (id type : String) : Bool := (d id).any fun types => (types type).isSome

def Dict.put {α : Type} (d : Dict α) (id type : String) (x : α) : Dict α :=
  Function.update d id (some (Function.update ((d id).getD fun _ => none) type (some x)))

/-- `needFix` is set at the end, when `dups` counts one. -/
structure Detect where
  seen : Dict Nat := fun _ => none
  dups : Dict Nat := fun _ => none
  needFix : Bool := false

/-- `doc['_id']['type']`, or the empty string. -/
def docType (doc : EntityDoc) : String := doc.key.type.getD ""

def defaultPath (doc : EntityDoc) : Bool := doc.key.servicePath.all (· == "/")

def detect (s : Detect) (doc : EntityDoc) : Detect :=
  if defaultPath doc = false then s
  else if s.seen.has doc.key.id (docType doc) then
    { s with dups := s.dups.put doc.key.id (docType doc) 1, needFix := true }
  else { s with seen := s.seen.put doc.key.id (docType doc) doc.attrs.length }

def getSpDups (cursor : List EntityDoc) : Detect := cursor.foldl detect {}

structure Fix where
  world : World
  hits : Nat := 0
  errors : Nat := 0

/-- `doc['_id']['servicePath'] = '/'`. -/
def rooted (doc : EntityDoc) : EntityDoc := { doc with key := { doc.key with servicePath := some "/" } }

def Fix.error (s : Fix) (w : World) : Fix := { s with world := w, errors := s.errors + 1 }

/-- The selector has `None` for the type of an entity without one. -/
def removeOld (doc : EntityDoc) (s : Fix) : Fix :=
  let (o, w) := s.world.call
  match o.writeError with
  | some _ => s.error w
  | none => { s with world := { w with entities := w.entities.remove (selects doc.key.id (selectedType doc) none) } }

/-- An `_id` that is there already is an error as well. -/
def insertNew (doc : EntityDoc) (s : Fix) : Fix :=
  let (o, w) := s.world.call
  match o.writeError with
  | some _ => s.error w
  | none =>
    match w.entities.insert (rooted doc) with
    | none => s.error w
    | some entities => removeOld doc { s with world := { w with entities := entities } }

def fixDoc (dups : Dict Nat) (doc : EntityDoc) (s : Fix) : Fix :=
  if dups.has doc.key.id (docType doc) || doc.key.servicePath.isSome then s
  else insertNew doc { s with hits := s.hits + 1 }

/-- A query of the script: `find()`, or the `count()` of `null_service_path`. -/
def query (w : World) : Option PyError × World := (w.call.1.queryError.map .pymongo, w.call.2)

def documents (s : Fix) : List EntityDoc := s.world.entities.docs

/-- The script, with the exception that ends it. Its queries are the first scan, a count, the second scan and
another count. -/
inductive Run (w : World) : Option PyError → World → Prop where
  | first {e : PyError} {w1 : World} (h1 : query w = (some e, w1)) : Run w (some e) w1
  | count {e : PyError} {w1 w2 : World} (h1 : query w = (none, w1)) (h2 : query w1 = (some e, w2)) : Run w (some e) w2
  | second {e : PyError} {w1 w2 w3 : World} (h1 : query w = (none, w1)) (h2 : query w1 = (none, w2))
      (h3 : query w2 = (some e, w3)) : Run w (some e) w3
  /-- The cursor of the second scan fails on the way. -/
  | cut {w1 w2 w3 : World} {cursor rest : List EntityDoc} {s : Fix} (e : PyError) (h1 : query w = (none, w1))
      (hcursor : cursor.Perm w.entities.docs) (h2 : query w1 = (none, w2)) (h3 : query w2 = (none, w3))
      (hscan : Scan documents (fixDoc (getSpDups cursor).dups) w.entities.docs w.entities.docs { world := w3 } rest s) :
      Run w (some e) s.world
  | last {e : Option PyError} {w1 w2 w3 w4 : World} {cursor : List EntityDoc} {s : Fix} (h1 : query w = (none, w1))
      (hcursor : cursor.Perm w.entities.docs) (h2 : query w1 = (none, w2)) (h3 : query w2 = (none, w3))
      (hscan : Scan documents (fixDoc (getSpDups cursor).dups) w.entities.docs w.entities.docs { world := w3 } [] s)
      (h4 : query s.world = (e, w4)) : Run w e w4

/-! ## What the first scan finds -/

theorem Dict.has_put {α : Type} (d : Dict α) (id type id' type' : String) (x : α) :
    (d.put id type x).has id' type' = (decide (id' = id ∧ type' = type) || d.has id' type') := by
  unfold Dict.has Dict.put
  by_cases hid : id' = id
  · subst hid
    by_cases ht : type' = type
    · subst ht
      simp
    · cases d id' <;> simp [ht]
  · simp [hid]

/-- A document with the default path, or none, of that entity. -/
def isOf (id type : String) (doc : EntityDoc) : Bool :=
  defaultPath doc && decide (doc.key.id = id ∧ docType doc = type)

/-- What the dictionaries hold after a part of the scan. -/
structure Detected (done : List EntityDoc) (s : Detect) : Prop where
  seen : ∀ id type, s.seen.has id type = true ↔ 0 < done.countP (isOf id type)
  dups : ∀ id type, s.dups.has id type = true ↔ 2 ≤ done.countP (isOf id type)

theorem Detected.nil : Detected [] {} := ⟨by simp [Dict.has], by simp [Dict.has]⟩

theorem Detected.step {done : List EntityDoc} {s : Detect} (h : Detected done s) (doc : EntityDoc) :
    Detected (done ++ [doc]) (detect s doc) := by
  have hcount : ∀ id type, (done ++ [doc]).countP (isOf id type) =
      done.countP (isOf id type) + (if isOf id type doc then 1 else 0) := by
    intro id type
    rw [List.countP_append, List.countP_singleton]
  unfold detect
  by_cases hpath : defaultPath doc = false
  · have hno : ∀ id type, isOf id type doc = false := fun id type => by simp [isOf, hpath]
    rw [if_pos hpath]
    refine ⟨fun id type => ?_, fun id type => ?_⟩
    · rw [hcount, hno, h.seen]
      simp
    · rw [hcount, hno, h.dups]
      simp
  · have hpath' : defaultPath doc = true := by simpa using hpath
    have hof : ∀ id type, isOf id type doc = decide (id = doc.key.id ∧ type = docType doc) := fun id type => by
      simp only [isOf, hpath', Bool.true_and, eq_comm]
    rw [if_neg hpath]
    by_cases hseen : s.seen.has doc.key.id (docType doc) = true
    · rw [if_pos hseen]
      have hpos := (h.seen _ _).1 hseen
      refine ⟨fun id type => ?_, fun id type => ?_⟩
      · rw [hcount, hof]
        by_cases he : id = doc.key.id ∧ type = docType doc
        · obtain ⟨rfl, rfl⟩ := he
          simp [hseen]
        · simp [he, h.seen]
      · rw [hcount, hof, Dict.has_put]
        by_cases he : id = doc.key.id ∧ type = docType doc
        · obtain ⟨rfl, rfl⟩ := he
          simp only [and_self, decide_true, Bool.true_or, if_true, true_iff]
          omega
        · simp [he, h.dups]
    · rw [if_neg hseen]
      have hzero : ¬ 0 < done.countP (isOf doc.key.id (docType doc)) := fun hpos => hseen ((h.seen _ _).2 hpos)
      refine ⟨fun id type => ?_, fun id type => ?_⟩
      · rw [hcount, hof, Dict.has_put]
        by_cases he : id = doc.key.id ∧ type = docType doc
        · obtain ⟨rfl, rfl⟩ := he
          simp
        · simp [he, h.seen]
      · rw [hcount, hof]
        by_cases he : id = doc.key.id ∧ type = docType doc
        · obtain ⟨rfl, rfl⟩ := he
          have := h.dups doc.key.id (docType doc)
          simp only [this, and_self, decide_true, if_true]
          omega
        · simp [he, h.dups]

theorem detected_getSpDups (cursor : List EntityDoc) : Detected cursor (getSpDups cursor) := by
  have hrun : ∀ (cursor done : List EntityDoc) (s : Detect), Detected done s →
      Detected (done ++ cursor) (cursor.foldl detect s) := by
    intro cursor
    induction cursor with
    | nil =>
      intro done s h
      simpa using h
    | cons doc cursor ih =>
      intro done s h
      simpa using ih (done ++ [doc]) (detect s doc) (h.step doc)
  exact hrun cursor [] {} .nil

/-! ## The collection at the start -/

/-- The broker stores no empty type (MongoCommonUpdate.cpp:1417-1422). -/
def NamedTypes (docs : List EntityDoc) : Prop := ∀ d ∈ docs, d.key.type ≠ some ""

/-- The same entity under "/". -/
def HasTwin (docs : List EntityDoc) (doc : EntityDoc) : Prop := ∃ twin ∈ docs, twin.key = (rooted doc).key

instance (docs : List EntityDoc) (doc : EntityDoc) : Decidable (HasTwin docs doc) :=
  inferInstanceAs (Decidable (∃ twin ∈ docs, _))

theorem docType_inj {a b : EntityDoc} (ha : a.key.type ≠ some "") (hb : b.key.type ≠ some "")
    (h : docType a = docType b) : a.key.type = b.key.type := by
  unfold docType at h
  cases hta : a.key.type <;> cases htb : b.key.type <;> simp_all

theorem key_eq_iff {a b : EntityDoc} (ha : a.key.type ≠ some "") (hb : b.key.type ≠ some "") :
    a.key = b.key ↔ a.key.id = b.key.id ∧ docType a = docType b ∧ a.key.servicePath = b.key.servicePath := by
  constructor
  · intro h
    rw [docType, docType, h]
    exact ⟨rfl, rfl, rfl⟩
  · rintro ⟨hid, htype, hpath⟩
    have htype := docType_inj ha hb htype
    cases hka : a.key
    cases hkb : b.key
    simp_all

/-- The duplicates are the documents without path that have a twin. -/
theorem inDups_iff {docs cursor : List EntityDoc} (hnodup : (docs.map EntityDoc.key).Nodup) (htypes : NamedTypes docs)
    (hcursor : cursor.Perm docs) {doc : EntityDoc} (hdoc : doc ∈ docs) (hpath : doc.key.servicePath = none) :
    (getSpDups cursor).dups.has doc.key.id (docType doc) = true ↔ HasTwin docs doc := by
  have hself : isOf doc.key.id (docType doc) doc = true := by simp [isOf, defaultPath, hpath]
  rw [(detected_getSpDups cursor).dups, hcursor.countP_eq]
  have hcount : docs.countP (isOf doc.key.id (docType doc)) =
      (docs.erase doc).countP (isOf doc.key.id (docType doc)) + 1 := by
    rw [(List.perm_cons_erase hdoc).countP_eq, List.countP_cons, if_pos hself]
  have htwo : 2 ≤ docs.countP (isOf doc.key.id (docType doc)) ↔
      ∃ twin ∈ docs.erase doc, isOf doc.key.id (docType doc) twin = true := by
    rw [hcount, ← List.countP_pos_iff]
    omega
  rw [htwo]
  have hdocs : docs.Nodup := hnodup.of_map _
  constructor
  · rintro ⟨twin, htwin, hof⟩
    obtain ⟨hne, hmem⟩ := hdocs.mem_erase_iff.1 htwin
    simp only [isOf, Bool.and_eq_true, decide_eq_true_eq] at hof
    obtain ⟨hdefault, hid, htype⟩ := hof
    refine ⟨twin, hmem, ?_⟩
    have hsome : twin.key.servicePath = some "/" := by
      cases htp : twin.key.servicePath with
      | none =>
        -- two documents with the same `_id`
        have hkey : twin.key = doc.key :=
          (key_eq_iff (htypes _ hmem) (htypes _ hdoc)).2 ⟨hid, htype, htp.trans hpath.symm⟩
        exact absurd (List.inj_on_of_nodup_map hnodup hmem hdoc hkey) hne
      | some path =>
        rw [defaultPath, htp] at hdefault
        simpa using hdefault
    exact (key_eq_iff (b := rooted doc) (htypes _ hmem) (htypes doc hdoc)).2 ⟨hid, htype, hsome⟩
  · rintro ⟨twin, hmem, hkey⟩
    have hroot : twin.key.servicePath = some "/" := by rw [hkey]; rfl
    refine ⟨twin, hdocs.mem_erase_iff.2 ⟨?_, hmem⟩, ?_⟩
    · rintro rfl
      rw [hroot] at hpath
      cases hpath
    · simp [isOf, defaultPath, docType, hkey, rooted]

/-! ## An iteration -/

theorem selects_old {doc : EntityDoc} (ht : doc.key.type ≠ some "") (hp : doc.key.servicePath = none) (d : EntityDoc) :
    selects doc.key.id (selectedType doc) none d = decide (d.key = doc.key) := by
  have hkey : (⟨doc.key.id, selectedType doc, none⟩ : EntityKey) = doc.key := by
    rw [selectedType, if_neg ht, ← hp]
  rw [selects, hkey]

/-- The documents after an iteration that is not skipped: nothing is written, the copy is there as well, or it has
taken the place of the original. -/
inductive Edited (doc : EntityDoc) (docs : List EntityDoc) : List EntityDoc → Prop where
  | none : Edited doc docs docs
  | both (h : (rooted doc).key ∉ docs.map EntityDoc.key) : Edited doc docs (docs ++ [rooted doc])
  | moved (h : (rooted doc).key ∉ docs.map EntityDoc.key) :
      Edited doc docs ((docs ++ [rooted doc]).filter fun d => !decide (d.key = doc.key))

theorem insert_eq_some {c c' : Collection EntityDoc EntityKey EntityDoc.key} {d : EntityDoc} (h : c.insert d = some c') :
    d.key ∉ c.docs.map EntityDoc.key := by
  unfold Collection.insert at h
  split at h
  · cases h
  · assumption

section

variable {doc : EntityDoc} (ht : doc.key.type ≠ some "") (hp : doc.key.servicePath = none)
include ht hp

theorem docs_remove (c : Collection EntityDoc EntityKey EntityDoc.key) :
    (c.remove (selects doc.key.id (selectedType doc) none)).docs = c.docs.filter fun d => !decide (d.key = doc.key) := by
  unfold Collection.remove
  simp only [selects_old ht hp]

theorem removeOld_docs (s : Fix) : documents (removeOld doc s) = documents s ∨
    documents (removeOld doc s) = (documents s).filter fun d => !decide (d.key = doc.key) := by
  have hsame := s.world.call_same.entities
  unfold removeOld
  simp only
  split
  · left
    rw [documents, documents, Fix.error, hsame]
  · right
    rw [documents, documents, docs_remove ht hp, hsame]

theorem insertNew_edits (s : Fix) : Edited doc (documents s) (documents (insertNew doc s)) := by
  have hsame := s.world.call_same.entities
  unfold insertNew
  simp only
  split
  · rw [documents, documents, Fix.error, hsame]
    exact .none
  · split
    · rw [documents, documents, Fix.error, hsame]
      exact .none
    · rename_i entities hinsert
      have hnew := insert_eq_some hinsert
      have hdocs := Collection.docs_insert hinsert
      rw [hsame] at hnew hdocs
      have hboth : documents { s with world := { s.world.call.2 with entities := entities } } =
          documents s ++ [rooted doc] := hdocs
      rcases removeOld_docs ht hp { s with world := { s.world.call.2 with entities := entities } } with h | h
      · rw [h, hboth]
        exact .both hnew
      · rw [h, hboth]
        exact .moved hnew

/-- Nothing fails but an `_id` that is taken. -/
theorem insertNew_sure {s : Fix} (hsure : s.world.Sure) (hnew : (rooted doc).key ∉ (documents s).map EntityDoc.key) :
    (insertNew doc s).world.Sure ∧
      documents (insertNew doc s) = (documents s ++ [rooted doc]).filter fun d => !decide (d.key = doc.key) := by
  have hcall : s.world.call = (.ok, s.world) := hsure.call
  obtain ⟨entities, hinsert⟩ : ∃ entities, s.world.entities.insert (rooted doc) = some entities := by
    unfold Collection.insert
    exact ⟨_, dif_neg hnew⟩
  have hsure' : World.Sure { s.world with entities := entities } := hsure
  have hinsertNew : insertNew doc s = { s with world :=
      { s.world with entities := entities.remove (selects doc.key.id (selectedType doc) none) } } := by
    unfold insertNew
    rw [hcall]
    simp only [Outcome.writeError]
    rw [hinsert]
    unfold removeOld
    simp only
    rw [hsure'.call]
    rfl
  refine ⟨by rw [hinsertNew]; exact hsure, ?_⟩
  rw [hinsertNew]
  change (entities.remove (selects doc.key.id (selectedType doc) none)).docs = _
  rw [docs_remove ht hp, Collection.docs_insert hinsert]
  rfl

end

theorem fixDoc_sure (dups : Dict Nat) (doc : EntityDoc) {s : Fix} (hsure : s.world.Sure) :
    (fixDoc dups doc s).world.Sure := by
  unfold fixDoc
  split
  · exact hsure
  · unfold insertNew
    simp only
    rw [hsure.call]
    simp only [Outcome.writeError]
    split
    · exact hsure
    · rename_i entities _
      unfold removeOld
      simp only
      rw [World.Sure.call (w := { s.world with entities := entities }) hsure]
      exact hsure

theorem fixDoc_of_path (dups : Dict Nat) {doc : EntityDoc} (h : doc.key.servicePath ≠ none) (s : Fix) :
    fixDoc dups doc s = s := by
  rw [fixDoc, if_pos]
  simp [Option.isSome_iff_ne_none.2 h]

/-! ## No document is lost -/

/-- Every document of the start is there, perhaps under "/", and what else is there has a path. -/
structure Kept (start : List EntityDoc) (s : Fix) : Prop where
  content : ∀ d ∈ start, d ∈ documents s ∨ rooted d ∈ documents s
  others : ∀ d ∈ documents s, d ∈ start ∨ d.key.servicePath ≠ none

theorem rooted_key_ne {doc d : EntityDoc} (hp : doc.key.servicePath = none) : (rooted d).key ≠ doc.key := by
  intro h
  rw [← h] at hp
  cases hp

theorem fixDoc_keeps {start : List EntityDoc} (hnodup : (start.map EntityDoc.key).Nodup) (htypes : NamedTypes start)
    (dups : Dict Nat) {doc : EntityDoc} {s : Fix} (h : Kept start s) (hdoc : doc ∈ start ∨ doc.key.servicePath ≠ none) :
    Kept start (fixDoc dups doc s) := by
  by_cases hp : doc.key.servicePath = none
  · have hdoc := hdoc.resolve_right fun hne => hne hp
    unfold fixDoc
    split
    · exact h
    · have hedit := insertNew_edits (htypes doc hdoc) hp { s with hits := s.hits + 1 }
      have hroot : (rooted doc).key.servicePath ≠ none := by simp [rooted]
      generalize insertNew doc { s with hits := s.hits + 1 } = s' at hedit
      obtain ⟨hcontent, hothers⟩ := h
      have hin : ∀ d ∈ documents s ++ [rooted doc], d ∈ start ∨ d.key.servicePath ≠ none := by
        intro d hd
        rcases List.mem_append.1 hd with hd | hd
        · exact hothers d hd
        · rw [List.mem_singleton.1 hd]
          exact .inr hroot
      have hgoal : ∀ docs', Edited doc (documents s) docs' → (∀ d ∈ start, d ∈ docs' ∨ rooted d ∈ docs') ∧
          ∀ d ∈ docs', d ∈ start ∨ d.key.servicePath ≠ none := by
        intro docs' hedit
        cases hedit with
        | none => exact ⟨hcontent, hothers⟩
        | both hnew =>
          exact ⟨fun d hd => (hcontent d hd).imp (List.mem_append_left _) (List.mem_append_left _), hin⟩
        | moved hnew =>
          refine ⟨fun d hd => ?_, fun d hd => hin d (List.mem_of_mem_filter hd)⟩
          by_cases hd' : d = doc
          · refine .inr (List.mem_filter.2 ⟨?_, ?_⟩)
            · rw [hd']
              exact List.mem_append_right _ List.mem_cons_self
            · simpa using rooted_key_ne hp
          · have hkey : d.key ≠ doc.key := fun hk => hd' (List.inj_on_of_nodup_map hnodup hd hdoc hk)
            refine (hcontent d hd).imp (fun hmem => ?_) (fun hmem => ?_)
            · exact List.mem_filter.2 ⟨List.mem_append_left _ hmem, by simpa using hkey⟩
            · exact List.mem_filter.2 ⟨List.mem_append_left _ hmem, by simpa using rooted_key_ne hp⟩
      obtain ⟨h1, h2⟩ := hgoal _ hedit
      exact ⟨h1, h2⟩
  · rw [fixDoc_of_path dups hp]
    exact h

/-! ## What becomes of the collection -/

/-- An entity without path goes under "/", unless its twin is there. -/
def migrate (docs : List EntityDoc) (doc : EntityDoc) : EntityDoc :=
  if doc.key.servicePath = none ∧ ¬ HasTwin docs doc then rooted doc else doc

/-- The documents still to come are as they were, the others migrated. -/
structure Migrating (start pending : List EntityDoc) (s : Fix) : Prop where
  sure : s.world.Sure
  parts : ∃ done, (done ++ pending).Perm start ∧ (documents s).Perm (done.map (migrate start) ++ pending)

/-- The test of the loop, on a document of the start. -/
def Spots (start : List EntityDoc) (dups : Dict Nat) : Prop :=
  ∀ doc ∈ start, doc.key.servicePath = none → (dups.has doc.key.id (docType doc) = true ↔ HasTwin start doc)

section

variable {start : List EntityDoc} (hnodup : (start.map EntityDoc.key).Nodup) (htypes : NamedTypes start)
include hnodup htypes

/-- No migrated document has the `_id` that is to be inserted. -/
theorem rooted_key_not_mem {done pending : List EntityDoc} {doc : EntityDoc} (hperm : (doc :: done ++ pending).Perm start)
    (hp : doc.key.servicePath = none) (htwin : ¬ HasTwin start doc) :
    (rooted doc).key ∉ (done.map (migrate start) ++ doc :: pending).map EntityDoc.key := by
  have hstart : (doc :: done ++ pending).Nodup := hperm.nodup_iff.2 (hnodup.of_map _)
  have hmem : ∀ d, d ∈ doc :: done ++ pending → d ∈ start := fun d => hperm.mem_iff.1
  have hdoc : doc ∈ start := hmem doc List.mem_cons_self
  intro hkey
  obtain ⟨d, hd, hkey⟩ := List.mem_map.1 hkey
  rcases List.mem_append.1 hd with hd | hd
  · obtain ⟨e, he, rfl⟩ := List.mem_map.1 hd
    have hestart : e ∈ start := hmem e (by simp [he])
    unfold migrate at hkey
    split at hkey
    · rename_i hcond
      have hsame : e.key = doc.key := by
        have hk := hkey
        rw [key_eq_iff (a := rooted e) (b := rooted doc) (htypes e hestart) (htypes doc hdoc)] at hk
        exact (key_eq_iff (htypes e hestart) (htypes doc hdoc)).2 ⟨hk.1, hk.2.1, hcond.1.trans hp.symm⟩
      have heq := List.inj_on_of_nodup_map hnodup hestart hdoc hsame
      rw [List.cons_append, List.nodup_cons] at hstart
      exact hstart.1 (by simp [← heq, he])
    · exact htwin ⟨e, hestart, hkey⟩
  · rcases List.mem_cons.1 hd with rfl | hd
    · exact rooted_key_ne hp hkey.symm
    · exact htwin ⟨d, hmem d (by simp [hd]), hkey⟩

theorem fixDoc_migrates {dups : Dict Nat} (hspots : Spots start dups) {pre post : List EntityDoc} {doc : EntityDoc}
    {s : Fix} (h : Migrating start (pre ++ doc :: post) s) : Migrating start (pre ++ post) (fixDoc dups doc s) := by
  obtain ⟨hsure, done, hperm, hdocs⟩ := h
  have hmiddle : (done ++ (pre ++ doc :: post)).Perm (doc :: done ++ (pre ++ post)) := by
    rw [List.cons_append, ← List.append_assoc, ← List.append_assoc]
    exact List.perm_middle
  have hperm' := hmiddle.symm.trans hperm
  have hdoc : doc ∈ start := hperm'.mem_iff.1 List.mem_cons_self
  have hdocs' : (documents s).Perm (done.map (migrate start) ++ doc :: (pre ++ post)) :=
    hdocs.trans (List.Perm.append_left _ List.perm_middle)
  by_cases hskip : dups.has doc.key.id (docType doc) = true ∨ doc.key.servicePath ≠ none
  · have hstay : migrate start doc = doc := by
      rw [migrate, if_neg]
      rintro ⟨hp, htwin⟩
      exact hskip.elim (fun hdup => htwin ((hspots doc hdoc hp).1 hdup)) fun hne => hne hp
    have hbody : fixDoc dups doc s = s := by
      rw [fixDoc, if_pos]
      rcases hskip with h | h
      · simp [h]
      · simp [Option.isSome_iff_ne_none.2 h]
    rw [hbody]
    refine ⟨hsure, doc :: done, hperm', ?_⟩
    rw [List.map_cons, hstay, List.cons_append]
    exact hdocs'.trans List.perm_middle
  · obtain ⟨hdup, hp⟩ := not_or.1 hskip
    have hp : doc.key.servicePath = none := not_not.1 hp
    have htwin : ¬ HasTwin start doc := fun h => hdup ((hspots doc hdoc hp).2 h)
    have hmoves : migrate start doc = rooted doc := if_pos ⟨hp, htwin⟩
    have hnew := rooted_key_not_mem hnodup htypes hperm' hp htwin
    rw [← (hdocs'.map EntityDoc.key).mem_iff] at hnew
    have hbody : fixDoc dups doc s = insertNew doc { s with hits := s.hits + 1 } := by
      rw [fixDoc, if_neg]
      simp [hdup, hp]
    obtain ⟨hsure', hres⟩ := insertNew_sure (htypes doc hdoc) hp (s := { s with hits := s.hits + 1 }) hsure hnew
    rw [hbody]
    refine ⟨hsure', doc :: done, hperm', ?_⟩
    rw [hres, List.map_cons, hmoves]
    have hothers : doc.key ∉ (done.map (migrate start) ++ (pre ++ post)).map EntityDoc.key := by
      have hkeys := ((hdocs'.trans List.perm_middle).map EntityDoc.key).nodup_iff.1 s.world.entities.nodup
      exact (List.nodup_cons.1 hkeys).1
    have hkeep : ∀ d ∈ done.map (migrate start) ++ (pre ++ post), (!decide (d.key = doc.key)) = true := by
      intro d hd
      simp only [Bool.not_eq_true', decide_eq_false_iff_not]
      intro hkey
      exact hothers (hkey ▸ List.mem_map_of_mem hd)
    have hroot : [rooted doc].filter (fun d => !decide (d.key = doc.key)) = [rooted doc] := by
      simp [rooted_key_ne hp]
    have hfilter := ((hdocs'.trans List.perm_middle).append_right [rooted doc]).filter fun d => !decide (d.key = doc.key)
    refine hfilter.trans ?_
    rw [List.filter_append, List.filter_cons_of_neg (by simp), List.filter_eq_self.2 hkeep, hroot]
    exact List.perm_append_singleton _ _

omit hnodup htypes in
/-- A document that was inserted is skipped. -/
theorem added_skipped {dups : Dict Nat} {pending : List EntityDoc} {doc : EntityDoc} {s : Fix}
    (h : Migrating start pending s) (hdoc : doc ∈ documents s) (hnew : doc ∉ start) : fixDoc dups doc s = s := by
  obtain ⟨-, done, hperm, hdocs⟩ := h
  refine fixDoc_of_path dups (fun hp => ?_) s
  rcases List.mem_append.1 (hdocs.mem_iff.1 hdoc) with hmem | hmem
  · obtain ⟨e, he, rfl⟩ := List.mem_map.1 hmem
    unfold migrate at hp hnew
    split at hp
    · cases hp
    · rename_i hcond
      rw [if_neg hcond] at hnew
      exact hnew (hperm.mem_iff.1 (List.mem_append_left _ he))
  · exact hnew (hperm.mem_iff.1 (List.mem_append_right _ hmem))

end

/-! ## The script as a whole -/

theorem query_same {w w1 : World} {e : Option PyError} (h : query w = (e, w1)) :
    w1.entities = w.entities ∧ (w.Sure → w1.Sure) := by
  cases h
  exact ⟨w.call_same.entities, fun hsure => by rw [hsure.call]; exact hsure⟩

/-- The second scan begins with the documents of the start. -/
theorem queries_same {w w1 w2 w3 : World} (h1 : query w = (none, w1)) (h2 : query w1 = (none, w2))
    (h3 : query w2 = (none, w3)) : w3.entities = w.entities ∧ (w.Sure → w3.Sure) := by
  obtain ⟨he1, hs1⟩ := query_same h1
  obtain ⟨he2, hs2⟩ := query_same h2
  obtain ⟨he3, hs3⟩ := query_same h3
  exact ⟨he3.trans (he2.trans he1), fun h => hs3 (hs2 (hs1 h))⟩

section

variable {w w' : World} (htypes : NamedTypes w.entities.docs)
include htypes

theorem spots_getSpDups {cursor : List EntityDoc} (hcursor : cursor.Perm w.entities.docs) :
    Spots w.entities.docs (getSpDups cursor).dups := fun _ hdoc hp =>
  inDups_iff w.entities.nodup htypes hcursor hdoc hp

/-- **Nothing is lost**, whatever fails. -/
theorem run_keeps {e : Option PyError} (h : Run w e w') :
    ∀ d ∈ w.entities.docs, d ∈ w'.entities.docs ∨ rooted d ∈ w'.entities.docs := by
  have hloop : ∀ {dups : Dict Nat} {w3 : World} {rest : List EntityDoc} {s : Fix}, w3.entities = w.entities →
      Scan documents (fixDoc dups) w.entities.docs w.entities.docs { world := w3 } rest s → Kept w.entities.docs s := by
    intro dups w3 rest s hw hscan
    have hinit : Kept w.entities.docs { world := w3 } := by
      refine ⟨fun d hd => .inl ?_, fun d hd => .inl ?_⟩
      · rw [documents, hw]
        exact hd
      · rw [documents, hw] at hd
        exact hd
    have hinv := Scan.induct (I := fun pending s => pending ⊆ w.entities.docs ∧ Kept w.entities.docs s) ?_ ?_ hscan
      ⟨List.Subset.refl _, hinit⟩
    · exact hinv.2
    · rintro pre doc post s ⟨hsub, hkept⟩
      have hdoc : doc ∈ w.entities.docs := hsub (by simp)
      exact ⟨fun d hd => hsub (List.append_subset.2 ⟨by simp, by simp⟩ hd),
        fixDoc_keeps w.entities.nodup htypes dups hkept (.inl hdoc)⟩
    · rintro pending doc s ⟨hsub, hkept⟩ hdoc hnew
      exact ⟨hsub, fixDoc_keeps w.entities.nodup htypes dups hkept (.inr ((hkept.others doc hdoc).resolve_left hnew))⟩
  intro d hd
  cases h with
  | first h1 =>
    rw [(query_same h1).1]
    exact .inl hd
  | count h1 h2 =>
    rw [(query_same h2).1, (query_same h1).1]
    exact .inl hd
  | second h1 h2 h3 =>
    rw [(query_same h3).1, (query_same h2).1, (query_same h1).1]
    exact .inl hd
  | cut _ h1 hcursor h2 h3 hscan => exact (hloop (queries_same h1 h2 h3).1 hscan).content d hd
  | last h1 hcursor h2 h3 hscan h4 =>
    rw [(query_same h4).1]
    exact (hloop (queries_same h1 h2 h3).1 hscan).content d hd

/-- **What becomes of the collection** when no call fails. -/
theorem run_migrates (hsure : w.Sure) (h : Run w none w') :
    w'.entities.docs.Perm (w.entities.docs.map (migrate w.entities.docs)) := by
  cases h with
  | last h1 hcursor h2 h3 hscan h4 =>
    obtain ⟨hw, hsure3⟩ := queries_same h1 h2 h3
    have hspots := spots_getSpDups htypes hcursor
    have hinit : Migrating w.entities.docs w.entities.docs { world := _ } :=
      ⟨hsure3 hsure, [], List.Perm.refl _, by rw [documents, hw]; exact List.Perm.refl _⟩
    have hend := Scan.induct (I := Migrating w.entities.docs) ?_ ?_ hscan hinit
    · obtain ⟨-, done, hperm, hdocs⟩ := hend
      rw [(query_same h4).1]
      rw [List.append_nil] at hperm hdocs
      exact hdocs.trans (hperm.map _)
    · intro pre doc post s hs
      exact fixDoc_migrates w.entities.nodup htypes hspots hs
    · intro pending doc s hs hdoc hnew
      rw [added_skipped hs hdoc hnew]
      exact hs

/-- A collection in which every entity without path has a twin is left as it is. -/
theorem run_unchanged (htwins : ∀ d ∈ w.entities.docs, d.key.servicePath = none → HasTwin w.entities.docs d)
    {e : Option PyError} (h : Run w e w') : w'.entities.docs = w.entities.docs := by
  have hloop : ∀ {cursor : List EntityDoc} {w3 : World} {rest : List EntityDoc} {s : Fix},
      cursor.Perm w.entities.docs → w3.entities = w.entities →
      Scan documents (fixDoc (getSpDups cursor).dups) w.entities.docs w.entities.docs { world := w3 } rest s →
      documents s = w.entities.docs := by
    intro cursor w3 rest s hcursor hw hscan
    have hspots := spots_getSpDups htypes hcursor
    have hskip : ∀ doc ∈ w.entities.docs, ∀ s, fixDoc (getSpDups cursor).dups doc s = s := by
      intro doc hdoc s
      by_cases hp : doc.key.servicePath = none
      · rw [fixDoc, if_pos]
        simp [(hspots doc hdoc hp).2 (htwins doc hdoc hp)]
      · exact fixDoc_of_path _ hp s
    have hinv := Scan.induct (I := fun pending s => pending ⊆ w.entities.docs ∧ documents s = w.entities.docs) ?_ ?_
      hscan ⟨List.Subset.refl _, by rw [documents, hw]⟩
    · exact hinv.2
    · rintro pre doc post s ⟨hsub, hdocs⟩
      rw [hskip doc (hsub (by simp))]
      exact ⟨fun d hd => hsub (List.append_subset.2 ⟨by simp, by simp⟩ hd), hdocs⟩
    · rintro pending doc s ⟨hsub, hdocs⟩ hdoc hnew
      exact absurd (hdocs ▸ hdoc) hnew
  cases h with
  | first h1 => rw [(query_same h1).1]
  | count h1 h2 => rw [(query_same h2).1, (query_same h1).1]
  | second h1 h2 h3 => rw [(query_same h3).1, (query_same h2).1, (query_same h1).1]
  | cut _ h1 hcursor h2 h3 hscan => exact hloop hcursor (queries_same h1 h2 h3).1 hscan
  | last h1 hcursor h2 h3 hscan h4 =>
    rw [(query_same h4).1]
    exact hloop hcursor (queries_same h1 h2 h3).1 hscan

omit htypes in
/-- The script comes to its end. -/
theorem run_exists (hsure : w.Sure) : ∃ w', Run w none w' := by
  have hquery : ∀ v : World, v.Sure → query v = (none, v) := by
    intro v hv
    rw [query, hv.call]
    rfl
  have hscan := Scan.of_foldl documents (fixDoc (getSpDups w.entities.docs).dups) w.entities.docs w.entities.docs
    { world := w }
  have hend := Scan.induct (I := fun _ s => s.world.Sure) (fun _ _ _ _ => fixDoc_sure _ _)
    (fun _ _ _ hs _ _ => fixDoc_sure _ _ hs) hscan hsure
  have hstart := hquery w hsure
  exact ⟨_, .last hstart (List.Perm.refl _) hstart hstart hscan (hquery _ hend)⟩

end

theorem migrate_type (docs : List EntityDoc) (doc : EntityDoc) : (migrate docs doc).key.type = doc.key.type := by
  unfold migrate
  split <;> rfl

/-- What is left without path after a run has its twin. -/
theorem migrated_twins {docs docs' : List EntityDoc} (h : docs'.Perm (docs.map (migrate docs))) :
    ∀ d ∈ docs', d.key.servicePath = none → HasTwin docs' d := by
  intro d hd hp
  obtain ⟨e, he, rfl⟩ := List.mem_map.1 (h.mem_iff.1 hd)
  unfold migrate at hp ⊢
  split at hp
  · cases hp
  · rename_i hcond
    rw [if_neg hcond]
    obtain ⟨twin, htwin, hkey⟩ := not_not.1 fun hno => hcond ⟨hp, hno⟩
    have hstay : migrate docs twin = twin := by
      rw [migrate, if_neg]
      rintro ⟨hp', -⟩
      rw [hkey] at hp'
      cases hp'
    exact ⟨twin, h.mem_iff.2 (hstay ▸ List.mem_map_of_mem htwin), hkey⟩

/-- Attributes and other fields are those of the original: `migrate` changes `_id.servicePath` alone. -/
theorem fixDefaultSp_preserves {w : World} (htypes : NamedTypes w.entities.docs) :
    (w.Sure → (∃ w', Run w none w') ∧ ∀ w', Run w none w' →
      w'.entities.docs.Perm (w.entities.docs.map (migrate w.entities.docs)) ∧
      ∀ e w'', Run w' e w'' → w''.entities.docs = w'.entities.docs) ∧
    ∀ e w', Run w e w' → ∀ d ∈ w.entities.docs, d ∈ w'.entities.docs ∨ rooted d ∈ w'.entities.docs := by
  refine ⟨fun hsure => ⟨run_exists hsure, fun w' hrun => ?_⟩, fun e w' hrun => run_keeps htypes hrun⟩
  have hperm := run_migrates htypes hsure hrun
  have htypes' : NamedTypes w'.entities.docs := by
    intro d hd
    obtain ⟨e, he, rfl⟩ := List.mem_map.1 (hperm.mem_iff.1 hd)
    rw [migrate_type]
    exact htypes e he
  exact ⟨hperm, fun e w'' hrun' => run_unchanged htypes' (migrated_twins hperm) hrun'⟩

/-! ## Three entities -/

def oldRoom : EntityDoc := { key := ⟨"Room", some "T", none⟩, attrs := [{ name := some "t" }] }

def oldDoor : EntityDoc := { key := ⟨"Door", none, none⟩ }

def newDoor : EntityDoc := { key := ⟨"Door", none, some "/"⟩ }

def oldWorld : World := { entities := ⟨[oldRoom, oldDoor, newDoor], by decide⟩ }

/-- The room goes under "/", the doors stay. -/
theorem oldWorld_migrated : NamedTypes oldWorld.entities.docs ∧ oldWorld.Sure ∧
    ∃ w', Run oldWorld none w' ∧ w'.entities.docs.Perm [rooted oldRoom, oldDoor, newDoor] := by
  have htypes : NamedTypes oldWorld.entities.docs := by
    unfold NamedTypes
    decide
  have hsure : oldWorld.Sure := rfl
  obtain ⟨⟨w', hrun⟩, hall⟩ := (fixDefaultSp_preserves htypes).1 hsure
  exact ⟨htypes, hsure, w', hrun, (hall w' hrun).1⟩

end OrionBroker.FixDefaultSp
