import OrionBroker.Register.Subscriptions

/-!
# Availability subscriptions over whole runs

A run is any list of requests on the registry, each with the time it comes at and the identifier the driver makes
up for it, with any outcomes of the database calls.

* `availability_tally`: the stored `count` never exceeds the notifications sent to the subscription, and is their
  number when no call fails and they are fewer than 2^31 (an update reads the field as an `int`).
* `availability_address`: every notification sent under an identifier goes to one address, the one stored with it, which
  is read up to the first NUL.
* `unsubscribedAvailability_silent`: after an unsubscription answered with 200 nothing is sent any more.
-/

namespace OrionBroker.Register

open Mongo

/-! ## The counter -/

theorem sentTo_notified {r r' : Registry} {n : AvailabilityNotification} {id : String}
    (hid : oidOf n.subscriptionId = some id) (hs : r'.sent = r.sent ++ [n]) (oid : String) :
    r'.sentTo oid = r.sentTo oid + if oid = id then 1 else 0 := by
  unfold Registry.sentTo
  rw [hs, List.countP_append, List.countP_singleton, hid]
  by_cases h : oid = id
  · simp [h]
  · simp [h, Ne.symm h]

theorem sentTo_kept {r r' : Registry} (hs : r'.sent = r.sent) (oid : String) : r'.sentTo oid = r.sentTo oid := by
  unfold Registry.sentTo
  rw [hs]

/-- The counter of a document against the notifications of its subscription. `p` is the assumption that no call
fails. -/
structure Tally (p : Prop) (s : CasubDoc) (sent : Nat) : Prop where
  below : s.count.getD 0 ≤ (sent : Int)
  exact : p → sent < 2 ^ 31 → s.count.getD 0 = (sent : Int)

theorem Tally.bump {p : Prop} {s : CasubDoc} {sent : Nat} (h : Tally p s sent) (now : Int) :
    Tally p (bumpCasub now s) (sent + 1) := by
  have hc : (bumpCasub now s).count.getD 0 = s.count.getD 0 + 1 := rfl
  refine ⟨?_, fun hp hlt => ?_⟩
  · have := h.below
    rw [hc]
    omega
  · have := h.exact hp (by omega)
    rw [hc]
    omega

/-- A notification that is not counted. -/
theorem Tally.more {p : Prop} {s : CasubDoc} {sent : Nat} (h : Tally p s sent) (hp : ¬ p) : Tally p s (sent + 1) :=
  ⟨by have := h.below; omega, fun h' => absurd h' hp⟩

/-- The counter is read as an `int` and written back. -/
theorem Tally.reread {p : Prop} {s s' : CasubDoc} {sent : Nat} (h : Tally p s sent)
    (hc : s'.count = s.count.map getIntField) : Tally p s' sent := by
  cases hs : s.count with
  | none =>
    rw [hs] at hc
    exact ⟨by simp [hc], fun hp hlt => by have := h.exact hp hlt; simpa [hs, hc] using this⟩
  | some c =>
    have hb := h.below
    have he := h.exact
    rw [hs] at hc hb he
    simp only [Option.getD_some] at hb he
    refine ⟨?_, fun hp hlt => ?_⟩
    · rw [hc]
      simp only [Option.map_some, Option.getD_some, getIntField]
      split
      · exact hb
      · have : INT_MIN ≤ 0 := by decide
        omega
    · have hint : IsInt32 c := by
        have := he hp hlt
        unfold IsInt32 INT_MIN
        omega
      rw [hc]
      simp only [Option.map_some, Option.getD_some, getIntField, if_pos hint]
      exact he hp hlt

/-- What the steps of a run keep. `used` are the identifiers given out so far. -/
structure Tallied (p : Prop) (used : List String) (r : Registry) : Prop where
  sure : p → r.Sure
  spelled : Spelled r
  stored : ∀ s ∈ r.casubs.docs, s.oid ∈ used
  sent : ∀ n ∈ r.sent, ∀ id, oidOf n.subscriptionId = some id → id ∈ used
  tally : ∀ s ∈ r.casubs.docs, Tally p s (r.sentTo s.oid)

section
variable {p : Prop} {used : List String} {r r' : Registry}

/-- Step: one change. -/
theorem Tallied.change (h : Tallied p used r) (hc : Change r r') : Tallied p used r' := by
  have hsure : p → r'.Sure := fun hp => sure_of_suffix hc.outcomes (h.sure hp)
  cases hc with
  | quiet same =>
    refine ⟨hsure, ?_, ?_, ?_, fun s hs => ?_⟩
    · unfold Spelled
      rw [same.casubs]
      exact h.spelled
    · rw [same.casubs]
      exact h.stored
    · rw [same.sent]
      exact h.sent
    · rw [same.casubs] at hs
      rw [sentTo_kept same.sent]
      exact h.tally s hs
  | notified n id now spelled stored sent casubs outcomes =>
    obtain ⟨t, ht, rfl, _⟩ := stored
    have hsent : ∀ m ∈ r'.sent, ∀ id, oidOf m.subscriptionId = some id → id ∈ used := by
      intro m hm id hid
      rw [sent, List.mem_append, List.mem_singleton] at hm
      rcases hm with hm | rfl
      · exact h.sent m hm id hid
      · rw [spelled] at hid
        cases hid
        exact h.stored t ht
    rcases casubs with casubs | ⟨casubs, hfail⟩
    · have hmem : ∀ s ∈ r'.casubs.docs, (s ∈ r.casubs.docs ∧ s.oid ≠ t.oid) ∨
          ∃ d ∈ r.casubs.docs, d.oid = t.oid ∧ s = bumpCasub now d := by
        intro s hs
        rw [casubs] at hs
        exact Collection.mem_modify.1 hs
      refine ⟨hsure, fun s hs => ?_, fun s hs => ?_, hsent, fun s hs => ?_⟩
      · rcases hmem s hs with ⟨hs, _⟩ | ⟨d, hd, _, rfl⟩
        · exact h.spelled s hs
        · exact h.spelled d hd
      · rcases hmem s hs with ⟨hs, _⟩ | ⟨d, hd, _, rfl⟩
        · exact h.stored s hs
        · exact h.stored d hd
      · rw [sentTo_notified spelled sent]
        rcases hmem s hs with ⟨hs, hne⟩ | ⟨d, hd, ho, rfl⟩
        · rw [if_neg hne]
          exact h.tally s hs
        · have ho' : (bumpCasub now d).oid = t.oid := ho
          rw [if_pos ho']
          exact (h.tally d hd).bump now
    · refine ⟨hsure, ?_, ?_, hsent, fun s hs => ?_⟩
      · unfold Spelled
        rw [casubs]
        exact h.spelled
      · rw [casubs]
        exact h.stored
      · rw [casubs] at hs
        rw [sentTo_notified spelled sent]
        split
        · exact (h.tally s hs).more fun hp => hfail (h.sure hp)
        · exact h.tally s hs
  | replaced id f key reference count casubs sent outcomes =>
    have hmem : ∀ s ∈ r'.casubs.docs, ∃ d ∈ r.casubs.docs, d.oid = s.oid ∧
        (s = d ∨ s.count = d.count.map getIntField) := by
      intro s hs
      rw [casubs] at hs
      rcases Collection.mem_modify.1 hs with ⟨hs, _⟩ | ⟨d, hd, ho, rfl⟩
      · exact ⟨s, hs, rfl, .inl rfl⟩
      · exact ⟨d, hd, (key d).symm, .inr (count d hd ho)⟩
    refine ⟨hsure, fun s hs => ?_, fun s hs => ?_, ?_, fun s hs => ?_⟩
    · obtain ⟨d, hd, ho, _⟩ := hmem s hs
      rw [← ho]
      exact h.spelled d hd
    · obtain ⟨d, hd, ho, _⟩ := hmem s hs
      rw [← ho]
      exact h.stored d hd
    · rw [sent]
      exact h.sent
    · obtain ⟨d, hd, ho, hcount⟩ := hmem s hs
      rw [sentTo_kept sent, ← ho]
      rcases hcount with rfl | hcount
      · exact h.tally s hd
      · exact (h.tally d hd).reread hcount
  | removed id casubs sent outcomes =>
    have hmem : ∀ s ∈ r'.casubs.docs, s ∈ r.casubs.docs := by
      intro s hs
      rw [casubs] at hs
      exact List.mem_of_mem_filter hs
    refine ⟨hsure, fun s hs => h.spelled s (hmem s hs), fun s hs => h.stored s (hmem s hs), ?_, fun s hs => ?_⟩
    · rw [sent]
      exact h.sent
    · rw [sentTo_kept sent]
      exact h.tally s (hmem s hs)

theorem Tallied.run (h : Tallied p used r) (hc : Changes r r') : Tallied p used r' := by
  induction hc with
  | refl => exact h
  | tail _ hstep ih => exact ih.change hstep

/-- Step: a new subscription. Nothing has been sent to it, so its missing counter is right. -/
theorem Tallied.creates (h : Tallied p used r) {s : CasubDoc} (hc : Creates s r r') (hnew : s.oid ∉ used)
    (hs : oidOf s.oid = some s.oid) : Tallied p (s.oid :: used) r' := by
  have hdocs := Collection.docs_insert hc.casubs
  have hmem : ∀ t ∈ r'.casubs.docs, t ∈ r.casubs.docs ∨ t = s := by
    intro t ht
    rw [hdocs, List.mem_append, List.mem_singleton] at ht
    exact ht
  have hzero : r.sentTo s.oid = 0 := by
    unfold Registry.sentTo
    rw [List.countP_eq_zero]
    intro n hn
    simpa using fun hid => hnew (h.sent n hn _ hid)
  refine ⟨fun hp => ?_, fun t ht => ?_, fun t ht => ?_, fun n hn id hid => ?_, fun t ht => ?_⟩
  · unfold Registry.Sure
    rw [hc.outcomes]
    exact h.sure hp
  · rcases hmem t ht with ht | rfl
    · exact h.spelled t ht
    · exact hs
  · rcases hmem t ht with ht | rfl
    · exact List.mem_cons_of_mem _ (h.stored t ht)
    · exact List.mem_cons_self
  · rw [hc.sent] at hn
    exact List.mem_cons_of_mem _ (h.sent n hn id hid)
  · rw [sentTo_kept hc.sent]
    rcases hmem t ht with ht | rfl
    · exact h.tally t ht
    · rw [hzero]
      exact ⟨by simp [hc.count], fun _ _ => by simp [hc.count]⟩

/-- Step: a request. -/
theorem Tallied.served (h : Tallied p used r) {created : Option (String × String)} (hc : Served created r r')
    (hnew : ∀ c, created = some c → c.1 ∉ used ∧ oidOf c.1 = some c.1) :
    Tallied p ((created.map Prod.fst).toList ++ used) r' := by
  cases hc with
  | changes hc =>
    have h' := h.run hc
    exact { h' with
      stored := fun s hs => List.mem_append_right _ (h'.stored s hs)
      sent := fun n hn id hid => List.mem_append_right _ (h'.sent n hn id hid) }
  | creates s new r1 r2 before insert after =>
    obtain ⟨hn, hs⟩ := hnew _ new
    rw [new]
    exact ((h.run before).creates insert hn hs).run after

end

section
variable (env : Env) (regcomp : Regcomp) (tenant : String)

/-- The identifiers a run gives out, with the addresses of the subscriptions. -/
def createdSubs (reqs : List (Int × RegistryRequest)) : List (String × String) := reqs.filterMap fun q => q.2.created

def createdIds (reqs : List (Int × RegistryRequest)) : List String := (createdSubs reqs).map Prod.fst

theorem createdSubs_cons (now : Int) (req : RegistryRequest) (reqs : List (Int × RegistryRequest)) :
    createdSubs ((now, req) :: reqs) = req.created.toList ++ createdSubs reqs := by
  cases h : req.created <;> simp [createdSubs, h]

theorem tallied_run {p : Prop} : ∀ {reqs : List (Int × RegistryRequest)} {used : List String} {r : Registry},
    Tallied p used r → (∀ oid ∈ createdIds reqs, oidOf oid = some oid ∧ oid ∉ used) → (createdIds reqs).Nodup →
    Tallied p ((createdIds reqs).reverse ++ used) (serveAll env regcomp tenant reqs r)
  | [], _, _, h, _, _ => h
  | (now, req) :: reqs, used, r, h, hnew, hdist => by
    have hids : createdIds ((now, req) :: reqs) = (req.created.map Prod.fst).toList ++ createdIds reqs := by
      rw [createdIds, createdSubs_cons, List.map_append, createdIds]
      cases req.created <;> rfl
    rw [hids] at hnew hdist ⊢
    have hone : ∀ c, req.created = some c → oidOf c.1 = some c.1 ∧ c.1 ∉ used := by
      intro c hc
      exact hnew c.1 (by simp [hc])
    have hserved := serve_served env regcomp tenant now req h.spelled fun c hc => (hone c hc).1
    have h1 := h.served hserved fun c hc => (hone c hc).symm
    rw [serveAll, List.reverse_append, List.append_assoc]
    rw [List.nodup_append] at hdist
    obtain ⟨_, hrest, hdisj⟩ := hdist
    have hrev : (req.created.map Prod.fst).toList.reverse = (req.created.map Prod.fst).toList := by
      cases req.created <;> rfl
    rw [hrev]
    refine tallied_run h1 (fun id hid => ⟨(hnew id (List.mem_append_right _ hid)).1, ?_⟩) hrest
    intro hmem
    rcases List.mem_append.1 hmem with hmem | hmem
    · exact hdisj id hmem id hid rfl
    · exact (hnew id (List.mem_append_right _ hid)).2 hmem

/-- **The counter over a run.** From a registry without subscriptions, for every run whose new identifiers are
different and spelled by the driver, and for every outcome of the database calls: the counter of a stored
subscription never exceeds the notifications sent to it, and is their number when no call fails and they are fewer
than 2^31. -/
theorem availability_tally {r : Registry} (hcasubs : r.casubs = .empty) (hsent : r.sent = [])
    {reqs : List (Int × RegistryRequest)} (hspelled : ∀ oid ∈ createdIds reqs, oidOf oid = some oid)
    (hdist : (createdIds reqs).Nodup) :
    ∀ s ∈ (serveAll env regcomp tenant reqs r).casubs.docs,
      s.count.getD 0 ≤ ((serveAll env regcomp tenant reqs r).sentTo s.oid : Int) ∧
      (r.Sure → (serveAll env regcomp tenant reqs r).sentTo s.oid < 2 ^ 31 →
        s.count.getD 0 = ((serveAll env regcomp tenant reqs r).sentTo s.oid : Int)) := by
  have h0 : Tallied r.Sure [] r := by
    refine ⟨id, ?_, ?_, ?_, ?_⟩
    · unfold Spelled
      rw [hcasubs]
      exact nofun
    · rw [hcasubs]
      exact nofun
    · rw [hsent]
      exact nofun
    · rw [hcasubs]
      exact nofun
  have h := tallied_run env regcomp tenant h0 (fun oid ho => ⟨hspelled oid ho, by simp⟩) hdist
  exact fun s hs => ⟨(h.tally s hs).below, (h.tally s hs).exact⟩

end

/-- A subscription to `Room`, which is registered then, and the subscription updated. -/
def roomRequests : List (Int × RegistryRequest) :=
  [(100, .subscribe "51c0ac9ed714fb3b37d7d5a8"
      { entityIdVector := [{ id := "Room", type := "T", isPattern := "false" }], reference := "http://host/notify" } .json),
   (101, .register "/" "51c0ac9ed714fb3b37d7d5b1"
      { contextRegistrationVector := [
          { entityIdVector := [{ id := "Room", type := "T", isPattern := "false" }],
            providingApplication := "http://provider" }] }),
   (102, .updateSubscription
      { subscriptionId := "51C0AC9ED714FB3B37D7D5A8",
        entityIdVector := [{ id := "Room", type := "T", isPattern := "false" }] } .xml)]

/-- The registry after them. -/
def roomRegistry : Registry := serveAll (Env.plain fun _ _ => false) (fun _ => none) "" roomRequests {}

/-- Two notifications, of the registration and of the update, and a counter of 2. -/
theorem roomRegistry_tally :
    roomRegistry.casubs.docs.map (fun s => (s.oid, s.count)) = [("51c0ac9ed714fb3b37d7d5a8", some 2)] ∧
    ∀ s ∈ roomRegistry.casubs.docs, s.count.getD 0 ≤ (roomRegistry.sentTo s.oid : Int) ∧
      (Registry.Sure {} → roomRegistry.sentTo s.oid < 2 ^ 31 → s.count.getD 0 = (roomRegistry.sentTo s.oid : Int)) :=
  ⟨by decide +kernel, availability_tally _ _ _ rfl rfl (by decide) (by decide)⟩

/-! ## The address -/

/-- What is stored and what was sent comes from the subscriptions created so far. -/
structure Originated (known : List (String × String)) (r : Registry) : Prop where
  spelled : Spelled r
  stored : ∀ id url, r.Address id url → ∃ c ∈ known, c.1 = id ∧ cString c.2 = cString url
  sent : ∀ n ∈ r.sent, ∃ c ∈ known, oidOf n.subscriptionId = some c.1 ∧ cString c.2 = cString n.url

section
variable {known : List (String × String)} {r r' : Registry}

theorem address_of_modify {k : String} {f : CasubDoc → CasubDoc} {hf : ∀ s, (f s).oid = s.oid}
    (hr : ∀ s ∈ r.casubs.docs, s.oid = k → cString (f s).reference = cString s.reference)
    (h : r'.casubs = r.casubs.modify k f hf) {id url : String} (ha : r'.Address id url) : r.Address id url := by
  obtain ⟨s, hs, ho, hurl⟩ := ha
  rw [h] at hs
  rcases Collection.mem_modify.1 hs with ⟨hs, _⟩ | ⟨d, hd, hk, rfl⟩
  · exact ⟨s, hs, ho, hurl⟩
  · exact ⟨d, hd, by rw [← ho, hf], by rw [← hurl, hr d hd hk]⟩

/-- No change moves a subscription to another address, or sends to one that is not stored. -/
theorem Originated.change (h : Originated known r) (hc : Change r r') : Originated known r' := by
  have hspelled : ∀ {s : CasubDoc}, (∃ d ∈ r.casubs.docs, d.oid = s.oid) → oidOf s.oid = some s.oid := by
    rintro s ⟨d, hd, ho⟩
    rw [← ho]
    exact h.spelled d hd
  have hids : ∀ {k : String} {f : CasubDoc → CasubDoc} {hf : ∀ s, (f s).oid = s.oid},
      ∀ s ∈ (r.casubs.modify k f hf).docs, ∃ d ∈ r.casubs.docs, d.oid = s.oid := by
    intro k f hf s hs
    rcases Collection.mem_modify.1 hs with ⟨hs, _⟩ | ⟨d, hd, _, rfl⟩
    · exact ⟨s, hs, rfl⟩
    · exact ⟨d, hd, (hf d).symm⟩
  cases hc with
  | quiet same =>
    refine ⟨fun s hs => ?_, fun id url ha => ?_, ?_⟩
    · rw [same.casubs] at hs
      exact h.spelled s hs
    · rw [Registry.Address, same.casubs] at ha
      exact h.stored id url ha
    · rw [same.sent]
      exact h.sent
  | notified n id now spelled stored sent casubs outcomes =>
    have hsent : ∀ m ∈ r'.sent, ∃ c ∈ known, oidOf m.subscriptionId = some c.1 ∧ cString c.2 = cString m.url := by
      intro m hm
      rw [sent, List.mem_append, List.mem_singleton] at hm
      rcases hm with hm | rfl
      · exact h.sent m hm
      · obtain ⟨c, hc, hid, hurl⟩ := h.stored id _ stored
        exact ⟨c, hc, by rw [hid]; exact spelled, hurl⟩
    rcases casubs with casubs | ⟨casubs, _⟩
    · refine ⟨fun s hs => ?_, fun k url ha => h.stored k url ?_, hsent⟩
      · rw [casubs] at hs
        exact hspelled (hids s hs)
      · exact @address_of_modify r r' id (bumpCasub now) (fun _ => rfl) (fun _ _ _ => rfl) casubs k url ha
    · refine ⟨fun s hs => ?_, fun id url ha => ?_, hsent⟩
      · rw [casubs] at hs
        exact h.spelled s hs
      · rw [Registry.Address, casubs] at ha
        exact h.stored id url ha
  | replaced id f key reference count casubs sent outcomes =>
    refine ⟨fun s hs => ?_, fun id url ha => h.stored id url (address_of_modify reference casubs ha), ?_⟩
    · rw [casubs] at hs
      exact hspelled (hids s hs)
    · rw [sent]
      exact h.sent
  | removed id casubs sent outcomes =>
    refine ⟨fun s hs => ?_, fun id url ha => ?_, ?_⟩
    · rw [casubs] at hs
      exact h.spelled s (List.mem_of_mem_filter hs)
    · obtain ⟨s, hs, hkey⟩ := ha
      rw [casubs] at hs
      exact h.stored id url ⟨s, List.mem_of_mem_filter hs, hkey⟩
    · rw [sent]
      exact h.sent

theorem Originated.run (h : Originated known r) (hc : Changes r r') : Originated known r' := by
  induction hc with
  | refl => exact h
  | tail _ hstep ih => exact ih.change hstep

theorem Originated.served (h : Originated known r) {created : Option (String × String)} (hc : Served created r r')
    (hnew : ∀ c, created = some c → oidOf c.1 = some c.1) : Originated (created.toList ++ known) r' := by
  have hmore : ∀ {r : Registry} (c : List (String × String)), Originated known r → Originated (c ++ known) r := by
    intro r c h
    refine ⟨h.spelled, fun id url ha => ?_, fun n hn => ?_⟩
    · obtain ⟨k, hk, hstored⟩ := h.stored id url ha
      exact ⟨k, List.mem_append_right _ hk, hstored⟩
    · obtain ⟨k, hk, hsent⟩ := h.sent n hn
      exact ⟨k, List.mem_append_right _ hk, hsent⟩
  cases hc with
  | changes hc => exact hmore _ (h.run hc)
  | creates s new r1 r2 before insert after =>
    refine Originated.run ?_ after
    have h1 := hmore created.toList (h.run before)
    have hdocs : ∀ t ∈ r2.casubs.docs, t ∈ r1.casubs.docs ∨ t = s := by
      intro t ht
      rw [Collection.docs_insert insert.casubs, List.mem_append, List.mem_singleton] at ht
      exact ht
    refine ⟨fun t ht => ?_, fun id url ha => ?_, ?_⟩
    · rcases hdocs t ht with ht | rfl
      · exact h1.spelled t ht
      · exact hnew _ new
    · obtain ⟨t, ht, rfl, hurl⟩ := ha
      rcases hdocs t ht with ht | rfl
      · exact h1.stored _ _ ⟨t, ht, rfl, hurl⟩
      · exact ⟨(t.oid, t.reference), by simp [new], rfl, hurl⟩
    · rw [insert.sent]
      exact h1.sent

end

section
variable (env : Env) (regcomp : Regcomp) (tenant : String)

theorem originated_run : ∀ {reqs : List (Int × RegistryRequest)} {known : List (String × String)} {r : Registry},
    Originated known r → (∀ c ∈ createdSubs reqs, oidOf c.1 = some c.1) →
    Originated ((createdSubs reqs).reverse ++ known) (serveAll env regcomp tenant reqs r)
  | [], _, _, h, _ => h
  | (now, req) :: reqs, known, r, h, hnew => by
    rw [createdSubs_cons] at hnew ⊢
    have hone : ∀ c, req.created = some c → oidOf c.1 = some c.1 := fun c hc => hnew c (by simp [hc])
    have h1 := h.served (serve_served env regcomp tenant now req h.spelled hone) hone
    have hrev : req.created.toList.reverse = req.created.toList := by cases req.created <;> rfl
    rw [serveAll, List.reverse_append, List.append_assoc, hrev]
    exact originated_run h1 fun c hc => hnew c (List.mem_append_right _ hc)

/-- **Where notifications go.** In every run from a registry without subscriptions, whatever fails, each
notification is for a subscription that a request of the run asked for, and goes to the address of that request, of
which `parseUrl` sees what is before the first NUL. -/
theorem availability_address {r : Registry} (hcasubs : r.casubs = .empty) (hsent : r.sent = [])
    {reqs : List (Int × RegistryRequest)} (hspelled : ∀ oid ∈ createdIds reqs, oidOf oid = some oid) :
    ∀ n ∈ (serveAll env regcomp tenant reqs r).sent, ∃ now newOid requestP inFormat,
      (now, RegistryRequest.subscribe newOid requestP inFormat) ∈ reqs ∧ oidOf n.subscriptionId = some newOid ∧
        cString n.url = cString requestP.reference := by
  have h0 : Originated [] r := by
    refine ⟨?_, fun id url ha => ?_, ?_⟩
    · unfold Spelled
      rw [hcasubs]
      exact nofun
    · obtain ⟨s, hs, _⟩ := ha
      rw [hcasubs] at hs
      cases hs
    · rw [hsent]
      exact nofun
  have hone : ∀ c ∈ createdSubs reqs, oidOf c.1 = some c.1 := fun c hc => hspelled c.1 (List.mem_map_of_mem hc)
  have h := originated_run env regcomp tenant h0 hone
  intro n hn
  obtain ⟨⟨id, url⟩, hk, hid, hurl⟩ := h.sent n hn
  rw [List.append_nil, List.mem_reverse, createdSubs, List.mem_filterMap] at hk
  obtain ⟨⟨now, req⟩, hreq, hcreated⟩ := hk
  cases req with
  | subscribe newOid requestP inFormat =>
    obtain ⟨rfl, rfl⟩ : newOid = id ∧ requestP.reference = url := by simpa [RegistryRequest.created] using hcreated
    exact ⟨now, newOid, requestP, inFormat, hreq, hid, hurl.symm⟩
  | register servicePath newOid requestP => cases hcreated
  | notifyAvailability servicePath newOid crV => cases hcreated
  | updateSubscription requestP inFormat => cases hcreated
  | unsubscribe subscriptionId => cases hcreated

theorem roomRegistry_address :
    roomRegistry.sent.map (fun n => (n.subscriptionId, n.url)) =
      [("51c0ac9ed714fb3b37d7d5a8", "http://host/notify"), ("51C0AC9ED714FB3B37D7D5A8", "http://host/notify")] ∧
    ∀ n ∈ roomRegistry.sent, ∃ now newOid requestP inFormat,
      (now, RegistryRequest.subscribe newOid requestP inFormat) ∈ roomRequests ∧
        oidOf n.subscriptionId = some newOid ∧ cString n.url = cString requestP.reference :=
  ⟨by decide +kernel, availability_address _ _ _ rfl rfl (by decide)⟩

/-! ## After an unsubscription -/

/-- No subscription is stored under the identifier. -/
def Absent (id : String) (r : Registry) : Prop := Spelled r ∧ ∀ s ∈ r.casubs.docs, s.oid ≠ id

theorem absent_change {id : String} {r r' : Registry} (h : Absent id r) (hc : Change r r') :
    Absent id r' ∧ r'.sentTo id = r.sentTo id := by
  have hmodify : ∀ {k : String} {f : CasubDoc → CasubDoc} {hf : ∀ s, (f s).oid = s.oid},
      r'.casubs = r.casubs.modify k f hf → Absent id r' := by
    intro k f hf hcas
    have hmem : ∀ s ∈ r'.casubs.docs, ∃ d ∈ r.casubs.docs, d.oid = s.oid := by
      intro s hs
      rw [hcas] at hs
      rcases Collection.mem_modify.1 hs with ⟨hs, _⟩ | ⟨d, hd, _, rfl⟩
      · exact ⟨s, hs, rfl⟩
      · exact ⟨d, hd, (hf d).symm⟩
    refine ⟨fun s hs => ?_, fun s hs => ?_⟩
    · obtain ⟨d, hd, ho⟩ := hmem s hs
      rw [← ho]
      exact h.1 d hd
    · obtain ⟨d, hd, ho⟩ := hmem s hs
      rw [← ho]
      exact h.2 d hd
  have hsame : r'.casubs = r.casubs → Absent id r' := by
    intro hcas
    unfold Absent Spelled
    rw [hcas]
    exact h
  cases hc with
  | quiet same => exact ⟨hsame same.casubs, sentTo_kept same.sent id⟩
  | notified n k now spelled stored sent casubs outcomes =>
    obtain ⟨s, hs, rfl, _⟩ := stored
    have hne : id ≠ s.oid := fun he => h.2 s hs he.symm
    refine ⟨?_, by rw [sentTo_notified spelled sent, if_neg hne, Nat.add_zero]⟩
    rcases casubs with casubs | ⟨casubs, _⟩
    · exact hmodify casubs
    · exact hsame casubs
  | replaced k f key reference count casubs sent outcomes => exact ⟨hmodify casubs, sentTo_kept sent id⟩
  | removed k casubs sent outcomes =>
    refine ⟨⟨fun s hs => ?_, fun s hs => ?_⟩, sentTo_kept sent id⟩
    · rw [casubs] at hs
      exact h.1 s (List.mem_of_mem_filter hs)
    · rw [casubs] at hs
      exact h.2 s (List.mem_of_mem_filter hs)

theorem absent_changes {id : String} {r r' : Registry} (h : Absent id r) (hc : Changes r r') :
    Absent id r' ∧ r'.sentTo id = r.sentTo id := by
  induction hc with
  | refl => exact ⟨h, rfl⟩
  | tail _ hstep ih =>
    obtain ⟨hstep', hsent⟩ := absent_change ih.1 hstep
    exact ⟨hstep', hsent.trans ih.2⟩

theorem absent_served {id : String} {r r' : Registry} (h : Absent id r) {created : Option (String × String)}
    (hc : Served created r r') (hnew : ∀ c, created = some c → oidOf c.1 = some c.1 ∧ c.1 ≠ id) :
    Absent id r' ∧ r'.sentTo id = r.sentTo id := by
  cases hc with
  | changes hc => exact absent_changes h hc
  | creates s new r1 r2 before insert after =>
    obtain ⟨h1, hs1⟩ := absent_changes h before
    have h2 : Absent id r2 := by
      have hdocs : ∀ t ∈ r2.casubs.docs, t ∈ r1.casubs.docs ∨ t = s := by
        intro t ht
        rw [Collection.docs_insert insert.casubs, List.mem_append, List.mem_singleton] at ht
        exact ht
      refine ⟨fun t ht => ?_, fun t ht => ?_⟩
      · rcases hdocs t ht with ht | rfl
        · exact h1.1 t ht
        · exact (hnew _ new).1
      · rcases hdocs t ht with ht | rfl
        · exact h1.2 t ht
        · exact (hnew _ new).2
    obtain ⟨h3, hs3⟩ := absent_changes h2 after
    exact ⟨h3, hs3.trans ((sentTo_kept insert.sent id).trans hs1)⟩

theorem absent_run {id : String} : ∀ {reqs : List (Int × RegistryRequest)} {r : Registry}, Absent id r →
    (∀ oid ∈ createdIds reqs, oidOf oid = some oid ∧ oid ≠ id) →
    (serveAll env regcomp tenant reqs r).sentTo id = r.sentTo id
  | [], _, _, _ => rfl
  | (now, req) :: reqs, r, h, hnew => by
    have hone : ∀ c, req.created = some c → oidOf c.1 = some c.1 ∧ c.1 ≠ id := by
      intro c hc
      exact hnew c.1 (by simp [createdIds, createdSubs_cons, hc])
    obtain ⟨h1, hs1⟩ := absent_served h
      (serve_served env regcomp tenant now req h.1 fun c hc => (hone c hc).1) hone
    rw [serveAll]
    exact (absent_run h1 fun oid ho => hnew oid (by
      rw [createdIds, createdSubs_cons, List.map_append]
      exact List.mem_append_right _ ho)).trans hs1

/-- An unsubscription answered with 200 has removed the document. -/
theorem mongoUnsubscribeContextAvailability_ok {subscriptionId id : String} {r : Registry} (hs : Spelled r)
    (hid : oidOf subscriptionId = some id)
    (hok : (mongoUnsubscribeContextAvailability env tenant subscriptionId r).1.statusCode.code = .ok) :
    Absent id (mongoUnsubscribeContextAvailability env tenant subscriptionId r).2 := by
  obtain ⟨hq, hfound⟩ := findCasub_quiet env tenant subscriptionId r
  have herr : ∀ code, (findCasub env tenant subscriptionId r).1 = .error code → code.code ≠ .ok := by
    intro code
    unfold findCasub
    rw [hid]
    generalize r.call = c
    obtain ⟨o, r1⟩ := c
    cases o with
    | ok => exact nofun
    | nullCursor =>
      rintro ⟨⟩ h
      cases h
    | dbException what =>
      rintro ⟨⟩ h
      cases h
    | otherException =>
      rintro ⟨⟩ h
      cases h
  unfold mongoUnsubscribeContextAvailability at hok ⊢
  split at hok
  · rename_i code r1 e
    rw [e] at herr
    exact absurd hok (herr code rfl)
  · cases hok
  · rename_i sub r1 e
    rw [e] at hq hfound
    obtain ⟨_, hsub⟩ := hfound sub rfl
    rw [hid, Option.some.injEq] at hsub
    have hcall := hq.trans r1.call_quiet
    generalize r1.call = c at hcall hok
    obtain ⟨o, r2⟩ := c
    dsimp only at hcall hok ⊢
    split at hok
    · cases hok
    · refine ⟨fun s h => ?_, fun s h => ?_⟩
      · have h := List.mem_of_mem_filter h
        rw [hcall.casubs] at h
        exact hs s h
      · have h := List.of_mem_filter h
        rw [hsub]
        simpa using h

/-- **Silence after the answer.** After an unsubscription answered with 200, no run of later requests, whatever fails
in it, sends anything to the subscription, unless the driver makes its identifier up a second time. -/
theorem unsubscribedAvailability_silent {subscriptionId id : String} {r : Registry} (hs : Spelled r)
    (hid : oidOf subscriptionId = some id)
    (hok : (mongoUnsubscribeContextAvailability env tenant subscriptionId r).1.statusCode.code = .ok)
    {reqs : List (Int × RegistryRequest)} (hnew : ∀ oid ∈ createdIds reqs, oidOf oid = some oid ∧ oid ≠ id) :
    (serveAll env regcomp tenant reqs (mongoUnsubscribeContextAvailability env tenant subscriptionId r).2).sentTo id =
      (mongoUnsubscribeContextAvailability env tenant subscriptionId r).2.sentTo id :=
  absent_run env regcomp tenant (mongoUnsubscribeContextAvailability_ok env tenant hs hid hok) hnew

end

/-- The room is unsubscribed in another spelling and registered again. -/
theorem roomRegistry_silent :
    (mongoUnsubscribeContextAvailability (Env.plain fun _ _ => false) "" "51C0AC9ED714FB3B37D7D5A8" roomRegistry).1.statusCode.code
      = .ok ∧
    (serveAll (Env.plain fun _ _ => false) (fun _ => none) "" (roomRequests.drop 1)
      (mongoUnsubscribeContextAvailability (Env.plain fun _ _ => false) "" "51C0AC9ED714FB3B37D7D5A8"
        roomRegistry).2).sentTo "51c0ac9ed714fb3b37d7d5a8" =
    (mongoUnsubscribeContextAvailability (Env.plain fun _ _ => false) "" "51C0AC9ED714FB3B37D7D5A8"
      roomRegistry).2.sentTo "51c0ac9ed714fb3b37d7d5a8" := by
  have hok : (mongoUnsubscribeContextAvailability (Env.plain fun _ _ => false) "" "51C0AC9ED714FB3B37D7D5A8"
      roomRegistry).1.statusCode.code = .ok := by decide +kernel
  have hs : Spelled roomRegistry := by
    unfold Spelled
    decide +kernel
  exact ⟨hok, unsubscribedAvailability_silent _ _ _ hs (by decide) hok (by decide)⟩

end OrionBroker.Register
