import DeadLetter.Proofs.Registry.Handles
import DeadLetter.Proofs.Validation

/-!
# Who shares a client with whom

Clients are kept under the access key id of their credentials alone. `Served key` : handles hold clients that were made
for credentials with the keys of their own, share them just with those of the same key, and one client was made for each
key. Building keeps `Wiring.Serves` from one request to the next (`Wiring.Serves.ask`), so handles are served by access
key id. `Registry.served_iff` : they are served by their credentials if and only if the configuration has no different
credentials under one access key id, and no credentials under the key that stands for none.
-/

namespace DeadLetter

set_option autoImplicit false

/-! ## Credentials in a configuration -/

/-- The credentials of queues and dead letter queues, in the order in which clients are asked for. -/
def Properties.queueCredentials (config : Properties) : List (Option Credentials) :=
  config.queues.flatMap fun e => e.2.credentials? :: (e.2.dlqName.map fun _ => e.2.dlqCredentials?).toList

/-- The credentials of topics, in the order in which clients are asked for. -/
def Properties.topicCredentials (config : Properties) : List (Option Credentials) :=
  config.topics.map (·.2.credentials?)

/-- Some entry has no credentials, and another one has the key that stands for none. -/
def Credentials.Reserved (cs : List (Option Credentials)) : Prop :=
  none ∈ cs ∧ ∃ c, some c ∈ cs ∧ c.accessKeyId = "default"

/-- Credentials with one key are the same. -/
def Credentials.Apart (cs : List (Option Credentials)) : Prop :=
  ∀ c ∈ cs, ∀ c' ∈ cs, clientKey c = clientKey c' → c = c'

/-- A queue and a dead letter queue have one access key id with different secrets, or the key that stands for no
credentials is used besides entries without any. -/
def Properties.Confuses (config : Properties) : Prop :=
  (∃ e ∈ config.queues, ∃ e' ∈ config.queues, e'.2.dlqName.isSome ∧ ∃ c c', e.2.credentials? = some c ∧
    e'.2.dlqCredentials? = some c' ∧ c.accessKeyId = c'.accessKeyId ∧ c.secretAccessKey ≠ c'.secretAccessKey) ∨
  Credentials.Reserved config.queueCredentials ∨ Credentials.Reserved config.topicCredentials

theorem Credentials.ofPair?_eq_some {key secret : Option String} {c : Credentials} (h : ofPair? key secret = some c) :
    key = some c.accessKeyId := by
  unfold ofPair? at h
  split at h
  · cases h
    rfl
  · cases h

theorem Credentials.apart_iff {cs : List (Option Credentials)} :
    Apart cs ↔
      (∀ c c', some c ∈ cs → some c' ∈ cs → c.accessKeyId = c'.accessKeyId → c = c') ∧ ¬ Reserved cs := by
  constructor
  · intro h
    refine ⟨fun c c' hc hc' hkey => Option.some.inj (h _ hc _ hc' hkey), ?_⟩
    rintro ⟨hnone, c, hc, hkey⟩
    have heq := h _ hc _ hnone hkey
    cases heq
  · rintro ⟨hsame, hfree⟩ c hc c' hc' hkey
    cases c with
    | none =>
      cases c' with
      | none => rfl
      | some c' => exact absurd ⟨hc, c', hc', hkey.symm⟩ hfree
    | some c =>
      cases c' with
      | none => exact absurd ⟨hc', c, hc, hkey⟩ hfree
      | some c' => exact congrArg some (hsame c c' hc hc' hkey)

namespace Properties
variable {config : Properties}

theorem mem_queueCredentials {x : Option Credentials} :
    x ∈ config.queueCredentials ↔
      ∃ e ∈ config.queues, x = e.2.credentials? ∨ (e.2.dlqName.isSome ∧ x = e.2.dlqCredentials?) := by
  unfold queueCredentials
  rw [List.mem_flatMap]
  refine exists_congr fun e => and_congr_right fun _ => ?_
  rw [List.mem_cons]
  cases e.2.dlqName <;> simp

/-- Validation leaves two ways to have different credentials under one key. -/
theorem Sound.confuses_iff (h : config.Sound) :
    config.Confuses ↔ ¬ (Credentials.Apart config.queueCredentials ∧ Credentials.Apart config.topicCredentials) := by
  have hqueue {e e' : String × QueueProperties} (he : e ∈ config.queues) (he' : e' ∈ config.queues)
      {c c' : Credentials} (hc : e.2.credentials? = some c) (hc' : e'.2.credentials? = some c')
      (hkey : c.accessKeyId = c'.accessKeyId) : c = c' := by
    have heq := eq_of_nodup_filterMap h.queueKeys he he' (Credentials.ofPair?_eq_some hc)
      (hkey ▸ Credentials.ofPair?_eq_some hc')
    subst heq
    exact Option.some.inj (hc.symm.trans hc')
  have hdlq {e e' : String × QueueProperties} (he : e ∈ config.queues) (he' : e' ∈ config.queues)
      {c c' : Credentials} (hc : e.2.dlqCredentials? = some c) (hc' : e'.2.dlqCredentials? = some c')
      (hkey : c.accessKeyId = c'.accessKeyId) : c = c' := by
    have heq := eq_of_nodup_filterMap h.dlqKeys he he' (Credentials.ofPair?_eq_some hc)
      (hkey ▸ Credentials.ofPair?_eq_some hc')
    subst heq
    exact Option.some.inj (hc.symm.trans hc')
  have htopic (c c' : Credentials) (hc : some c ∈ config.topicCredentials) (hc' : some c' ∈ config.topicCredentials)
      (hkey : c.accessKeyId = c'.accessKeyId) : c = c' := by
    obtain ⟨e, he, hec⟩ := List.mem_map.mp hc
    obtain ⟨e', he', hec'⟩ := List.mem_map.mp hc'
    have heq := eq_of_nodup_filterMap h.topicKeys he he' (Credentials.ofPair?_eq_some hec)
      (hkey ▸ Credentials.ofPair?_eq_some hec')
    subst heq
    exact Option.some.inj (hec.symm.trans hec')
  rw [Credentials.apart_iff, Credentials.apart_iff]
  constructor
  · rintro (⟨e, he, e', he', hsome, c, c', hc, hc', hkey, hsecret⟩ | hreserved | hreserved) ⟨⟨hsame, hfree⟩, _, hfree'⟩
    · have hmem : some c ∈ config.queueCredentials := mem_queueCredentials.mpr ⟨e, he, Or.inl hc.symm⟩
      have hmem' : some c' ∈ config.queueCredentials := mem_queueCredentials.mpr ⟨e', he', Or.inr ⟨hsome, hc'.symm⟩⟩
      exact hsecret (congrArg (·.secretAccessKey) (hsame c c' hmem hmem' hkey))
    · exact hfree hreserved
    · exact hfree' hreserved
  · intro hnot
    by_contra hconfuses
    unfold Confuses at hconfuses
    rw [not_or, not_or] at hconfuses
    obtain ⟨hcross, hfree, hfree'⟩ := hconfuses
    -- what is left to show is that a queue and a dead letter queue with one key have one secret
    have hmixed {e e' : String × QueueProperties} (he : e ∈ config.queues) (he' : e' ∈ config.queues)
        (hsome : e'.2.dlqName.isSome) {c c' : Credentials} (hc : e.2.credentials? = some c)
        (hc' : e'.2.dlqCredentials? = some c') (hkey : c.accessKeyId = c'.accessKeyId) : c = c' := by
      by_contra hne
      refine hcross ⟨e, he, e', he', hsome, c, c', hc, hc', hkey, fun hsecret => hne ?_⟩
      obtain ⟨key, secret⟩ := c
      obtain ⟨key', secret'⟩ := c'
      simp only at hkey hsecret
      rw [hkey, hsecret]
    refine hnot ⟨⟨fun c c' hc hc' hkey => ?_, hfree⟩, htopic, hfree'⟩
    obtain ⟨e, he, hec⟩ := mem_queueCredentials.mp hc
    obtain ⟨e', he', hec'⟩ := mem_queueCredentials.mp hc'
    rcases hec with hec | ⟨hsome, hec⟩ <;> rcases hec' with hec' | ⟨hsome', hec'⟩
    · exact hqueue he he' hec.symm hec'.symm hkey
    · exact hmixed he he' hsome' hec.symm hec'.symm hkey
    · exact (hmixed he' he hsome hec'.symm hec.symm hkey.symm).symm
    · exact hdlq he he' hec.symm hec'.symm hkey

end Properties

/-! ## Clients and what they were made for -/

/-- Between two states of a factory's requests, clients were made for credentials: one for each key, and each holder has
the client of its own key. A client is the place of the request for it. -/
structure Served {κ : Type} (key : Option Credentials → κ) (holdings : List (Nat × Option Credentials))
    (before after : List (Option Credentials)) : Prop where
  own : ∀ h ∈ holdings, before.length ≤ h.1 ∧ ∃ c, after[h.1]? = some c ∧ key c = key h.2
  shared : ∀ h ∈ holdings, ∀ h' ∈ holdings, h.1 = h'.1 ↔ key h.2 = key h'.2
  asked : ∃ made, after = before ++ made ∧ (made.map key).Nodup ∧ (∀ c ∈ made, c ∈ holdings.map (·.2)) ∧
    ∀ h ∈ holdings, key h.2 ∈ made.map key

/-- Who is served by key is served by credentials just where no key stands for two of them. -/
theorem Served.iff_apart {holdings : List (Nat × Option Credentials)} {before after : List (Option Credentials)}
    (h : Served clientKey holdings before after) :
    Served id holdings before after ↔ Credentials.Apart (holdings.map (·.2)) := by
  constructor
  · intro hid c hc c' hc' hkey
    obtain ⟨g, hg, rfl⟩ := List.mem_map.mp hc
    obtain ⟨g', hg', rfl⟩ := List.mem_map.mp hc'
    exact (hid.shared g hg g' hg').mp ((h.shared g hg g' hg').mpr hkey)
  · intro hapart
    obtain ⟨made, rfl, hnodup, hmade, hheld⟩ := h.asked
    refine ⟨fun g hg => ?_, fun g hg g' hg' => ?_, made, rfl, ?_, hmade, fun g hg => ?_⟩
    · obtain ⟨hle, c, hc, hkey⟩ := h.own g hg
      have hmem : c ∈ made := by
        rw [List.getElem?_append_right hle] at hc
        exact List.mem_of_getElem? hc
      exact ⟨hle, c, hc, hapart c (hmade c hmem) g.2 (List.mem_map_of_mem hg) hkey⟩
    · rw [h.shared g hg g' hg']
      exact ⟨hapart g.2 (List.mem_map_of_mem hg) g'.2 (List.mem_map_of_mem hg'), congrArg clientKey⟩
    · rw [List.map_id]
      exact hnodup.of_map _
    · obtain ⟨c, hc, hkey⟩ := List.mem_map.mp (hheld g hg)
      have heq : c = g.2 := hapart c (hmade c hc) g.2 (List.mem_map_of_mem hg) hkey
      rw [List.map_id]
      exact heq ▸ hc

/-- How a factory makes the clients of one kind: a client is the place of its request, and the requests of the other
kind stay as they are. -/
structure Factory.Makes (create : Option Credentials → Factory → Nat × Factory)
    (requests others : Factory → List (Option Credentials)) : Prop where
  client : ∀ c f, (create c f).1 = (requests f).length
  requests_eq : ∀ c f, requests (create c f).2 = requests f ++ [c]
  others_eq : ∀ c f, others (create c f).2 = others f

theorem Factory.makes_queueClient : Makes queueClient queueClients topicClients :=
  ⟨fun _ _ => rfl, fun _ _ => rfl, fun _ _ => rfl⟩

theorem Factory.makes_topicClient : Makes topicClient topicClients queueClients :=
  ⟨fun _ _ => rfl, fun _ _ => rfl, fun _ _ => rfl⟩

namespace Registry

/-- The clients that wiring has handed out since the factory was in a state: each is kept under its key, for which it
was made. -/
structure Wiring.Serves (requests others : Factory → List (Option Credentials)) (f : Factory) (w : Wiring)
    (holdings : List (Nat × Option Credentials)) : Prop where
  untouched : others w.factory = others f
  made : ∃ made, requests w.factory = requests f ++ made ∧ (made.map clientKey).Nodup ∧
    ∀ c ∈ made, c ∈ holdings.map (·.2) ∧ (w.cache.clients.get? (clientKey c)).isSome
  cached : ∀ key i, w.cache.clients.get? key = some i →
    (requests f).length ≤ i ∧ ∃ c, (requests w.factory)[i]? = some c ∧ clientKey c = key
  held : ∀ h ∈ holdings, w.cache.clients.get? (clientKey h.2) = some h.1

namespace Wiring.Serves
variable {requests others : Factory → List (Option Credentials)} {f : Factory} {w : Wiring}
  {holdings : List (Nat × Option Credentials)}

theorem start (f : Factory) : Serves requests others f ⟨.empty, f⟩ [] where
  untouched := rfl
  made := ⟨[], (List.append_nil _).symm, List.nodup_nil, nofun⟩
  cached := nofun
  held := nofun

/-- One more request, served from the cache or by the factory. -/
theorem ask {create : Option Credentials → Factory → Nat × Factory} (hmakes : Factory.Makes create requests others)
    (h : Serves requests others f w holdings) (c : Option Credentials) :
    let r := w.cache.getOrCreate (clientKey c) (create c) w.factory
    Serves requests others f ⟨r.2.1, r.2.2⟩ (holdings ++ [(r.1, c)]) := by
  obtain ⟨cache, g⟩ := w
  obtain ⟨made, hmade, hnodup, hneeded⟩ := h.made
  cases hget : cache.clients.get? (clientKey c) with
  | some i =>
    rw [ClientCache.getOrCreate_of_get? hget]
    refine ⟨h.untouched, ⟨made, hmade, hnodup, fun c' hc' => ?_⟩, h.cached, fun g' hg' => ?_⟩
    · obtain ⟨hmem, hsome⟩ := hneeded c' hc'
      rw [List.map_append]
      exact ⟨List.mem_append_left _ hmem, hsome⟩
    · rcases List.mem_append.mp hg' with hg' | hg'
      · exact h.held g' hg'
      · rw [List.mem_singleton.mp hg']
        exact hget
  | none =>
    rw [ClientCache.getOrCreate_of_none hget]
    have hput (key : String) : (cache.clients.put (clientKey c) (create c g).1).get? key =
        if key = clientKey c then some (requests g).length else cache.clients.get? key := by
      rw [Dict.get?_put, hmakes.client]
    have hfresh (key : String) {i : Nat} (hi : cache.clients.get? key = some i) : key ≠ clientKey c := by
      rintro rfl
      rw [hget] at hi
      cases hi
    refine ⟨(hmakes.others_eq c g).trans h.untouched, ⟨made ++ [c], ?_, ?_, fun c' hc' => ?_⟩, fun key i hi => ?_,
      fun g' hg' => ?_⟩
    · rw [hmakes.requests_eq, hmade, List.append_assoc]
    · -- the cache has no client for the new key, so none was made for it
      have hnew : clientKey c ∉ made.map clientKey := by
        intro hmem
        obtain ⟨c', hc', hkey⟩ := List.mem_map.mp hmem
        have hsome := (hneeded c' hc').2
        rw [hkey, hget] at hsome
        cases hsome
      rw [List.map_append]
      exact List.nodup_append.mpr ⟨hnodup, List.nodup_singleton _, fun a ha b hb => by
        rw [List.mem_singleton.mp hb]
        exact fun heq => hnew (heq ▸ ha)⟩
    · rw [List.map_append, hput]
      rcases List.mem_append.mp hc' with hc' | hc'
      · obtain ⟨hmem, hsome⟩ := hneeded c' hc'
        refine ⟨List.mem_append_left _ hmem, ?_⟩
        split
        · rfl
        · exact hsome
      · rw [List.mem_singleton.mp hc', if_pos rfl]
        exact ⟨List.mem_append_right _ (List.mem_singleton.mpr rfl), rfl⟩
    · rw [hput] at hi
      rw [hmakes.requests_eq]
      split at hi
      · next hkey =>
        cases hi
        refine ⟨?_, c, List.getElem?_concat_length, hkey.symm⟩
        show (requests f).length ≤ (requests g).length
        rw [hmade, List.length_append]
        exact Nat.le_add_right _ _
      · obtain ⟨hle, c', hc', hkey⟩ := h.cached key i hi
        exact ⟨hle, c', List.getElem?_append_left (List.getElem?_eq_some_iff.mp hc').1 ▸ hc', hkey⟩
    · rw [hput]
      rcases List.mem_append.mp hg' with hg' | hg'
      · have hheld := h.held g' hg'
        rw [if_neg (hfresh _ hheld)]
        exact hheld
      · rw [List.mem_singleton.mp hg', if_pos rfl, hmakes.client]

/-- Handed out by one wiring, clients are those of the keys that they were asked for. -/
theorem served (h : Serves requests others f w holdings) :
    Served clientKey holdings (requests f) (requests w.factory) := by
  obtain ⟨made, hmade, hnodup, hneeded⟩ := h.made
  refine ⟨fun g hg => h.cached _ _ (h.held g hg), fun g hg g' hg' => ⟨fun heq => ?_, fun hkey => ?_⟩, made, hmade,
    hnodup, fun c hc => (hneeded c hc).1, fun g hg => ?_⟩
  · obtain ⟨_, c, hc, hkey⟩ := h.cached _ _ (h.held g hg)
    obtain ⟨_, c', hc', hkey'⟩ := h.cached _ _ (h.held g' hg')
    rw [heq, hc', Option.some.injEq] at hc
    rw [← hkey, ← hkey', hc]
  · have hheld := h.held g hg
    rw [hkey, h.held g' hg', Option.some.injEq] at hheld
    exact hheld.symm
  · obtain ⟨hle, c, hc, hkey⟩ := h.cached _ _ (h.held g hg)
    rw [hmade, List.getElem?_append_right hle] at hc
    exact List.mem_map.mpr ⟨c, List.mem_of_getElem? hc, hkey⟩

end Wiring.Serves

end Registry

/-! ## The clients of handles -/

/-- The clients that the handle of a queue holds, with the credentials configured for them. -/
def QueueHandle.holdings (q : QueueHandle) (p : QueueProperties) : List (Nat × Option Credentials) :=
  (q.client, p.credentials?) :: (q.dlq.map fun d => (d.client, p.dlqCredentials?)).toList

namespace Registry

def queueHoldings (r : Registry) (config : Properties) : List (Nat × Option Credentials) :=
  (r.queues.zip config.queues).flatMap fun e => e.1.holdings e.2.2

/-- The clients that topics hold, with the credentials configured for them. -/
def topicHoldings (r : Registry) (config : Properties) : List (Nat × Option Credentials) :=
  (r.topics.zip config.topics).map fun e => (e.1.client, e.2.2.credentials?)

namespace Wiring
variable {f : Factory} {w : Wiring} {holdings : List (Nat × Option Credentials)}

theorem Serves.queueClient (h : Serves Factory.queueClients Factory.topicClients f w holdings)
    (c : Option Credentials) :
    Serves Factory.queueClients Factory.topicClients f (w.queueClient c).2 (holdings ++ [((w.queueClient c).1, c)]) :=
  h.ask Factory.makes_queueClient c

theorem Serves.queue (h : Serves Factory.queueClients Factory.topicClients f w holdings) (i : String)
    (q : QueueProperties) :
    Serves Factory.queueClients Factory.topicClients f (w.queue i q).2 (holdings ++ (w.queue i q).1.holdings q) := by
  have hfirst := h.queueClient q.credentials?
  unfold Wiring.queue
  generalize w.queueClient q.credentials? = made at hfirst ⊢
  cases hd : q.dlqName with
  | none => exact hfirst
  | some d =>
    have hsecond := hfirst.queueClient q.dlqCredentials?
    rw [List.append_assoc] at hsecond
    exact hsecond

theorem Serves.queues (h : Serves Factory.queueClients Factory.topicClients f w holdings)
    (entries : List (String × QueueProperties)) :
    Serves Factory.queueClients Factory.topicClients f (w.queues entries).2
      (holdings ++ ((w.queues entries).1.zip entries).flatMap fun e => e.1.holdings e.2.2) := by
  induction entries generalizing w holdings with
  | nil =>
    show Serves _ _ f w (holdings ++ [])
    rw [List.append_nil]
    exact h
  | cons e entries ih =>
    obtain ⟨i, q⟩ := e
    have hrest := ih (h.queue i q)
    rw [List.append_assoc] at hrest
    exact hrest

theorem Serves.topics (h : Serves Factory.topicClients Factory.queueClients f w holdings)
    (entries : List (String × TopicProperties)) :
    Serves Factory.topicClients Factory.queueClients f (w.topics entries).2
      (holdings ++ ((w.topics entries).1.zip entries).map fun e => (e.1.client, e.2.2.credentials?)) := by
  induction entries generalizing w holdings with
  | nil =>
    show Serves _ _ f w (holdings ++ [])
    rw [List.append_nil]
    exact h
  | cons e entries ih =>
    obtain ⟨i, t⟩ := e
    have hrest := ih (h.ask Factory.makes_topicClient t.credentials?)
    rw [List.append_assoc] at hrest
    exact hrest

end Wiring

theorem holdings_congr {qs qs' : List QueueHandle}
    (h : qs.map (fun q => (q.client, q.dlq)) = qs'.map fun q => (q.client, q.dlq))
    (entries : List (String × QueueProperties)) :
    (qs.zip entries).flatMap (fun e => e.1.holdings e.2.2) = (qs'.zip entries).flatMap fun e => e.1.holdings e.2.2 := by
  have hclients (qs : List QueueHandle) :
      (qs.zip entries).flatMap (fun e => e.1.holdings e.2.2) =
        ((qs.map fun q => (q.client, q.dlq)).zip entries).flatMap fun e =>
          (e.1.1, e.2.2.credentials?) :: (e.1.2.map fun d => (d.client, e.2.2.dlqCredentials?)).toList := by
    rw [List.zip_map_left, List.flatMap_map]
    rfl
  rw [hclients, h, ← hclients]

theorem served_of_build {config : Properties} {f f' : Factory} {r : Registry} (h : build config f = .ok (r, f')) :
    Served clientKey (r.queueHoldings config) f.queueClients f'.queueClients ∧
      Served clientKey (r.topicHoldings config) f.topicClients f'.topicClients := by
  unfold build at h
  cases hvalid : validate config with
  | error e =>
    rw [hvalid] at h
    cases h
  | ok _ =>
    rw [hvalid] at h
    obtain ⟨rfl, rfl⟩ := Prod.mk.inj (Except.ok.inj h)
    have hqueues := (Wiring.Serves.start f).queues config.queues
    generalize Wiring.queues ⟨.empty, f⟩ config.queues = first at hqueues ⊢
    have htopics := (Wiring.Serves.start first.2.factory).topics config.topics
    generalize Wiring.topics ⟨.empty, first.2.factory⟩ config.topics = second at htopics ⊢
    rw [List.nil_append] at hqueues htopics
    have hserved := hqueues.served
    have hserved' := htopics.served
    -- the topics and the bucket ask for nothing of the queues' kind
    rw [← htopics.untouched] at hserved
    rw [hqueues.untouched] at hserved'
    constructor
    · unfold queueHoldings
      rw [holdings_congr (map_queues_ofHandles _ (fun _ _ => rfl) _ _ _ _)]
      split
      · exact hserved
      · exact hserved
    · split
      · exact hserved'
      · exact hserved'

namespace Holds
variable {r : Registry} {config : Properties}

theorem queueHoldings_credentials (h : r.Holds config) :
    (r.queueHoldings config).map (·.2) = config.queueCredentials := by
  have key (qs : List QueueHandle) (entries : List (String × QueueProperties))
      (hnames : qs.map (fun q => (q.id, q.name, q.dlqName?)) = entries.map fun e => (e.1, e.2.queueName, e.2.dlqName)) :
      ((qs.zip entries).flatMap fun e => e.1.holdings e.2.2).map (·.2) =
        entries.flatMap fun e => e.2.credentials? :: (e.2.dlqName.map fun _ => e.2.dlqCredentials?).toList := by
    induction qs generalizing entries with
    | nil =>
      rw [List.map_eq_nil_iff.mp hnames.symm]
      rfl
    | cons q qs ih =>
      cases entries with
      | nil => cases hnames
      | cons e entries =>
        obtain ⟨hhead, htail⟩ := List.cons.inj hnames
        have hdlq : q.dlqName? = e.2.dlqName := (Prod.mk.inj (Prod.mk.inj hhead).2).2
        rw [List.zip_cons_cons, List.flatMap_cons, List.flatMap_cons, List.map_append, ih entries htail, ← hdlq,
          QueueHandle.holdings, QueueHandle.dlqName?]
        cases q.dlq <;> rfl
  exact key r.queues config.queues h.queues

theorem topicHoldings_credentials (h : r.Holds config) :
    (r.topicHoldings config).map (·.2) = config.topicCredentials := by
  have hlength : config.topics.length ≤ r.topics.length := by
    have hlengths := congrArg List.length h.topics
    rw [List.length_map, List.length_map] at hlengths
    omega
  unfold topicHoldings Properties.topicCredentials
  rw [List.map_map, ← List.map_snd_zip hlength, List.map_map, List.map_snd_zip hlength]
  rfl

end Holds

/-- A valid configuration can be built. Each queue, dead letter queue and topic holds a client that was made for
credentials with its own access key id, and shares it with those that have the same one. These clients are the clients
of its very own credentials, shared only where the credentials are the same, if and only if the configuration does not
have different credentials under one key. -/
theorem served_iff {config : Properties} (hvalid : validate config = .ok ()) (f : Factory) :
    ∃ r f', build config f = .ok (r, f') ∧ r.Holds config ∧
      Served clientKey (r.queueHoldings config) f.queueClients f'.queueClients ∧
      Served clientKey (r.topicHoldings config) f.topicClients f'.topicClients ∧
      (Served id (r.queueHoldings config) f.queueClients f'.queueClients ∧
        Served id (r.topicHoldings config) f.topicClients f'.topicClients ↔ ¬ config.Confuses) := by
  obtain ⟨r, f', hbuild, hholds⟩ := build_holds hvalid f
  obtain ⟨hqueues, htopics⟩ := served_of_build hbuild
  refine ⟨r, f', hbuild, hholds, hqueues, htopics, ?_⟩
  rw [hqueues.iff_apart, htopics.iff_apart, hholds.queueHoldings_credentials, hholds.topicHoldings_credentials,
    (Properties.sound_of_validate hvalid).confuses_iff, not_not]

/-- A queue and its dead letter queue with one access key id and two secrets, both of which get the client of the first
secret. -/
theorem served_iff_confused :
    let config : Properties := { queues := [("a", {
      queueName := "a"
      dlqName := some "a-dlq"
      queueAccessKeyId := some "k"
      queueSecretAccessKey := some "s1"
      dlqAccessKeyId := some "k"
      dlqSecretAccessKey := some "s2" })] }
    validate config = .ok () ∧ ∃ r f', build config {} = .ok (r, f') ∧ f'.queueClients = [some ⟨"k", "s1"⟩] ∧
      ¬ Served id (r.queueHoldings config) [] f'.queueClients := by
  intro config
  have hvalid : validate config = .ok () := by decide +kernel
  have hconfuses : config.Confuses :=
    Or.inl ⟨_, List.mem_cons_self, _, List.mem_cons_self, rfl, _, _, rfl, rfl, rfl, by decide⟩
  obtain ⟨r, f', hbuild, hholds, _, htopics, hiff⟩ := served_iff hvalid {}
  have hmade : (build config {}).toOption.map (·.2.queueClients) = some [some ⟨"k", "s1"⟩] := by decide +kernel
  rw [hbuild] at hmade
  refine ⟨hvalid, r, f', hbuild, Option.some.inj hmade, fun hqueues => hiff.mp ⟨hqueues, ?_⟩ hconfuses⟩
  refine htopics.iff_apart.mpr ?_
  rw [hholds.topicHoldings_credentials]
  exact nofun

end Registry

end DeadLetter
