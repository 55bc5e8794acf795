import DeadLetter.Config.Validation
import Mathlib.Data.List.DropRight
import Mathlib.Data.List.Nodup

/-!
# What validation accepts

`Properties.Valid` says of a configuration, without the order of the checks, what each rule asks for: of ids, of each
queue (`QueueProperties.Valid`), of each topic (`TopicProperties.Valid`), and of what queues, topics and buckets share.
`validate_eq_ok_iff` : validation accepts exactly the valid configurations.

Checks are sequences that stop at the first failure: `bind_eq_ok_iff`, `forM_eq_ok_iff` and `refuse_eq_ok_iff` say when
one passes. There is one `_eq_ok_iff` for each check. `Properties.Sound` : what the rest of the program relies on in a
configuration, and `Properties.sound_of_validate` : validation ensures it. That ids do not repeat (`Properties.Keyed`)
is left to the tables that entries are read from.
-/

namespace DeadLetter

set_option autoImplicit false

namespace Validation

section Sequences
variable {ε α : Type}

theorem bind_eq_ok_iff {x : Except ε Unit} {f : Unit → Except ε Unit} :
    (x >>= f) = .ok () ↔ x = .ok () ∧ f () = .ok () := by
  cases x <;> simp [bind, Except.bind]

theorem forM_eq_ok_iff {f : α → Except ε Unit} {as : List α} : as.forM f = .ok () ↔ ∀ a ∈ as, f a = .ok () := by
  induction as with
  | nil => simp [List.forM, pure, Except.pure]
  | cons a as ih =>
    show (f a >>= fun _ => as.forM f) = .ok () ↔ _
    rw [bind_eq_ok_iff, ih, List.forall_mem_cons]

end Sequences

theorem refuse_eq_ok_iff {broken : Bool} {e : ConfigError} : refuse broken e = .ok () ↔ broken = false := by
  unfold refuse
  cases broken <;> simp

theorem firstRepeat?_eq_none_iff {seen vs : List String} :
    firstRepeat? seen vs = none ↔ vs.Nodup ∧ ∀ v ∈ vs, v ∉ seen := by
  induction vs generalizing seen with
  | nil => simp [firstRepeat?]
  | cons v vs ih =>
    rw [firstRepeat?, List.nodup_cons, List.forall_mem_cons]
    by_cases hv : v ∈ seen
    · simp [hv]
    · rw [if_neg hv, ih]
      constructor
      · rintro ⟨hnodup, hseen⟩
        have hnot : v ∉ vs := fun hmem => hseen v hmem List.mem_cons_self
        exact ⟨⟨hnot, hnodup⟩, hv, fun u hu hmem => hseen u hu (List.mem_cons_of_mem v hmem)⟩
      · rintro ⟨⟨hnot, hnodup⟩, _, hseen⟩
        refine ⟨hnodup, fun u hu hmem => ?_⟩
        rcases List.mem_cons.mp hmem with rfl | hmem
        · exact hnot hu
        · exact hseen u hu hmem

theorem checkDistinct_eq_ok_iff {field : String} {vs : List String} :
    checkDistinct field vs = .ok () ↔ vs.Nodup := by
  have hnone : firstRepeat? [] vs = none ↔ vs.Nodup := by
    rw [firstRepeat?_eq_none_iff]
    simp
  unfold checkDistinct
  cases h : firstRepeat? [] vs with
  | none => simp [hnone.mp h]
  | some v =>
    have hnot : ¬ vs.Nodup := fun hnodup => by simp [hnone.mpr hnodup] at h
    simp [hnot]

theorem allBlank_eq_false_iff {s : String} : Text.allBlank s = false ↔ Text.trim s ≠ "" := by
  have hdrop : (∀ c ∈ s.toList.dropWhile Text.isBlank, Text.isBlank c) ↔ ∀ c ∈ s.toList, Text.isBlank c := by
    constructor
    · intro h c hc
      rw [← List.takeWhile_append_dropWhile (p := Text.isBlank) (l := s.toList), List.mem_append] at hc
      exact hc.elim List.mem_takeWhile_imp (h c)
    · exact fun h c hc => h c ((List.dropWhile_sublist _).mem hc)
  have htrim : Text.trim s = "" ↔ (s.toList.dropWhile Text.isBlank).rdropWhile Text.isBlank = [] := by
    rw [Text.trim, ← String.toList_inj, String.toList_ofList, String.toList_empty, List.rdropWhile]
  rw [Ne, htrim, List.rdropWhile_eq_nil_iff, hdrop, Text.allBlank, Bool.eq_false_iff, Ne, List.all_eq_true]

end Validation

/-- The visibility timeouts that the provider accepts, in seconds. -/
def LegalTimeout (t : Int) : Prop := 0 ≤ t ∧ t ≤ 43200

/-- What is asked of a queue, on its own and against the topics of the configuration. -/
structure QueueProperties.Valid (config : Properties) (q : QueueProperties) : Prop where
  queueName : Text.trim q.queueName ≠ ""
  dlqName : ∀ d, q.dlqName = some d → Text.trim d ≠ "" ∧ DeadLetter.isFifo d = q.isFifo
  throughputLimit : ∀ limit, q.fifoThroughputLimit = some limit →
    q.isFifo ∧ (limit = "perQueue" ∨ limit = "perMessageGroupId")
  topic : ∀ topicId, q.subscribeTopicId = some topicId →
    ∃ t, config.topic? topicId = some t ∧ (t.isFifo → q.isFifo)
  filter : ∀ text, q.subscribeFilter = some text →
    q.subscribeTopicId ≠ none ∧ ∃ members, Json.read? text = some (.object members)
  visibilityTimeout : LegalTimeout q.visibilityTimeout
  schedule : ∀ t ∈ q.errorVisibilityTimeout, LegalTimeout t
  eventSchedules : ∀ ts ∈ q.eventErrorVisibilityTimeout.values, ∀ t ∈ ts, LegalTimeout t
  maxReceiveCount : 1 ≤ q.dlqMaxReceiveCount
  queueCredentials : q.queueAccessKeyId.isSome = q.queueSecretAccessKey.isSome
  dlqCredentials : q.dlqAccessKeyId.isSome = q.dlqSecretAccessKey.isSome

/-- What is asked of a topic. -/
structure TopicProperties.Valid (config : Properties) (t : TopicProperties) : Prop where
  arn : Text.trim t.arn ≠ ""
  credentials : t.accessKeyId.isSome = t.secretAccessKey.isSome
  region : config.provider = .localstack → ∃ rest, t.arn = "arn:aws:sns:" ++ config.region ++ ":" ++ rest

namespace Properties

/-- The configurations that can be used. -/
structure Valid (config : Properties) : Prop where
  ids : ∀ id ∈ config.queues.map (·.1) ++ config.topics.map (·.1) ++ config.buckets.map (·.1), Text.lower id = id
  queues : ∀ e ∈ config.queues, e.2.Valid config
  schedule : ∀ t ∈ config.defaultErrorVisibilityTimeout, LegalTimeout t
  queueNames : (config.queues.map (·.2.queueName)).Nodup
  dlqNames : (config.queues.filterMap (·.2.dlqName)).Nodup
  queueKeys : (config.queues.filterMap (·.2.queueAccessKeyId)).Nodup
  dlqKeys : (config.queues.filterMap (·.2.dlqAccessKeyId)).Nodup
  topics : ∀ e ∈ config.topics, e.2.Valid config
  topicArns : (config.topics.map (·.2.arn)).Nodup
  topicKeys : (config.topics.filterMap (·.2.accessKeyId)).Nodup
  buckets : ∀ e ∈ config.buckets, Text.trim e.2.bucketName ≠ ""
  bucketNames : (config.buckets.map (·.2.bucketName)).Nodup

end Properties

namespace Validation

/-! ## Each check -/

variable {config : Properties} {id : String} {q : QueueProperties}

theorem checkId_eq_ok_iff : checkId id = .ok () ↔ Text.lower id = id := by
  rw [checkId, refuse_eq_ok_iff, bne_eq_false_iff_eq]

theorem checkTimeouts_eq_ok_iff {ts : List Int} : checkTimeouts id ts = .ok () ↔ ∀ t ∈ ts, LegalTimeout t := by
  have hlegal : ∀ t, isTimeout t = true ↔ LegalTimeout t := by
    intro t
    rw [isTimeout, Bool.and_eq_true, decide_eq_true_eq, decide_eq_true_eq]
    rfl
  simp only [checkTimeouts, forM_eq_ok_iff, refuse_eq_ok_iff, Bool.not_eq_false', hlegal]

theorem checkDlqName_eq_ok_iff : checkDlqName id q = .ok () ↔
    ∀ d, q.dlqName = some d → Text.trim d ≠ "" ∧ DeadLetter.isFifo d = q.isFifo := by
  unfold checkDlqName
  cases q.dlqName with
  | none => simp
  | some d =>
    simp only [bind_eq_ok_iff, refuse_eq_ok_iff, allBlank_eq_false_iff, bne_eq_false_iff_eq, Option.some.injEq, forall_eq']
    exact and_congr_right fun _ => eq_comm

theorem checkThroughputLimit_eq_ok_iff : checkThroughputLimit id q = .ok () ↔
    ∀ limit, q.fifoThroughputLimit = some limit →
      q.isFifo ∧ (limit = "perQueue" ∨ limit = "perMessageGroupId") := by
  unfold checkThroughputLimit
  cases q.fifoThroughputLimit with
  | none => simp
  | some limit =>
    simp only [bind_eq_ok_iff, refuse_eq_ok_iff, Bool.not_eq_false', Bool.and_eq_false_iff, bne_eq_false_iff_eq,
      Option.some.injEq, forall_eq']

theorem checkSubscription_eq_ok_iff : checkSubscription config id q = .ok () ↔
    (∀ topicId, q.subscribeTopicId = some topicId →
      ∃ t, config.topic? topicId = some t ∧ (t.isFifo → q.isFifo)) ∧
    (q.subscribeFilter ≠ none → q.subscribeTopicId ≠ none) := by
  unfold checkSubscription
  cases q.subscribeTopicId with
  | none => cases q.subscribeFilter <;> simp
  | some topicId =>
    simp only [Option.some.injEq, forall_eq']
    cases config.topic? topicId with
    | none => simp
    | some t => simp [refuse_eq_ok_iff]

theorem checkFilter_eq_ok_iff : checkFilter id q = .ok () ↔
    ∀ text, q.subscribeFilter = some text → ∃ members, Json.read? text = some (.object members) := by
  unfold checkFilter
  cases q.subscribeFilter with
  | none => simp
  | some text =>
    simp only [Option.some.injEq, forall_eq']
    cases Json.read? text with
    | none => simp
    | some v => cases v <;> simp

theorem checkQueue_eq_ok_iff : checkQueue config id q = .ok () ↔ q.Valid config := by
  simp only [checkQueue, bind_eq_ok_iff, refuse_eq_ok_iff, allBlank_eq_false_iff, checkDlqName_eq_ok_iff,
    checkThroughputLimit_eq_ok_iff, checkSubscription_eq_ok_iff, checkFilter_eq_ok_iff, checkTimeouts_eq_ok_iff,
    beq_eq_false_iff_ne, Bool.or_eq_false_iff, bne_eq_false_iff_eq]
  constructor
  · rintro ⟨hname, hdlq, hlimit, ⟨htopic, honly⟩, hfilter, htimeouts, hcount, hkeys, hdlqKeys⟩
    obtain ⟨htimeout, htimeouts⟩ := List.forall_mem_cons.mp htimeouts
    obtain ⟨hschedule, hevents⟩ := List.forall_mem_append.mp htimeouts
    exact {
      queueName := hname
      dlqName := hdlq
      throughputLimit := hlimit
      topic := htopic
      filter := fun text htext => ⟨honly (by simp [htext]), hfilter text htext⟩
      visibilityTimeout := htimeout
      schedule := hschedule
      eventSchedules := fun ts hts t ht => hevents t (List.mem_flatten_of_mem hts ht)
      maxReceiveCount := Nat.one_le_iff_ne_zero.mpr hcount
      queueCredentials := hkeys
      dlqCredentials := hdlqKeys }
  · intro h
    have hevents : ∀ t ∈ q.eventErrorVisibilityTimeout.values.flatten, LegalTimeout t := by
      intro t ht
      obtain ⟨ts, hts, ht⟩ := List.mem_flatten.mp ht
      exact h.eventSchedules ts hts t ht
    have honly : q.subscribeFilter ≠ none → q.subscribeTopicId ≠ none := by
      intro hsome
      obtain ⟨text, htext⟩ := Option.ne_none_iff_exists'.mp hsome
      exact (h.filter text htext).1
    exact ⟨h.queueName, h.dlqName, h.throughputLimit, ⟨h.topic, honly⟩, fun text htext => (h.filter text htext).2,
      List.forall_mem_cons.mpr ⟨h.visibilityTimeout, List.forall_mem_append.mpr ⟨h.schedule, hevents⟩⟩,
      Nat.one_le_iff_ne_zero.mp h.maxReceiveCount, h.queueCredentials, h.dlqCredentials⟩

theorem checkTopic_eq_ok_iff {t : TopicProperties} : checkTopic config id t = .ok () ↔ t.Valid config := by
  have hregion : (config.provider == .localstack && !Text.hasPrefix t.arn (topicArnStart config.region)) = false ↔
      (config.provider = .localstack → ∃ rest, t.arn = "arn:aws:sns:" ++ config.region ++ ":" ++ rest) := by
    rw [← topicArnStart, ← Text.hasPrefix_iff]
    simp [imp_iff_not_or]
  simp only [checkTopic, bind_eq_ok_iff, refuse_eq_ok_iff, allBlank_eq_false_iff, bne_eq_false_iff_eq, hregion]
  exact ⟨fun ⟨harn, hkeys, hregion⟩ => ⟨harn, hkeys, hregion⟩, fun h => ⟨h.arn, h.credentials, h.region⟩⟩

theorem checkQueues_eq_ok_iff : checkQueues config = .ok () ↔
    (∀ e ∈ config.queues, e.2.Valid config) ∧ (∀ t ∈ config.defaultErrorVisibilityTimeout, LegalTimeout t) ∧
    (config.queues.map (·.2.queueName)).Nodup ∧ (config.queues.filterMap (·.2.dlqName)).Nodup ∧
    (config.queues.filterMap (·.2.queueAccessKeyId)).Nodup ∧ (config.queues.filterMap (·.2.dlqAccessKeyId)).Nodup := by
  simp only [checkQueues, bind_eq_ok_iff, forM_eq_ok_iff, checkQueue_eq_ok_iff, checkTimeouts_eq_ok_iff,
    checkDistinct_eq_ok_iff, List.map_map, List.filterMap_map]
  rfl

theorem checkTopics_eq_ok_iff : checkTopics config = .ok () ↔
    (∀ e ∈ config.topics, e.2.Valid config) ∧ (config.topics.map (·.2.arn)).Nodup ∧
    (config.topics.filterMap (·.2.accessKeyId)).Nodup := by
  simp only [checkTopics, bind_eq_ok_iff, forM_eq_ok_iff, checkTopic_eq_ok_iff, checkDistinct_eq_ok_iff, List.map_map,
    List.filterMap_map]
  rfl

theorem checkBuckets_eq_ok_iff : checkBuckets config = .ok () ↔
    (∀ e ∈ config.buckets, Text.trim e.2.bucketName ≠ "") ∧ (config.buckets.map (·.2.bucketName)).Nodup := by
  simp only [checkBuckets, bind_eq_ok_iff, forM_eq_ok_iff, refuse_eq_ok_iff, allBlank_eq_false_iff,
    checkDistinct_eq_ok_iff]

theorem validate_eq_ok_iff_passes : validate config = .ok () ↔
    (∀ id ∈ config.queues.map (·.1) ++ config.topics.map (·.1) ++ config.buckets.map (·.1), Text.lower id = id) ∧
    checkQueues config = .ok () ∧ checkTopics config = .ok () ∧ checkBuckets config = .ok () := by
  simp only [validate, bind_eq_ok_iff, forM_eq_ok_iff, checkId_eq_ok_iff]

end Validation

namespace Properties

/-- What the rest of the program relies on in a configuration. Names and access keys are told apart only from others of
their kind. -/
structure Sound (config : Properties) : Prop where
  queueNames : (config.queues.map (·.2.queueName)).Nodup
  dlqNames : (config.queues.filterMap (·.2.dlqName)).Nodup
  queueKeys : (config.queues.filterMap (·.2.queueAccessKeyId)).Nodup
  dlqKeys : (config.queues.filterMap (·.2.dlqAccessKeyId)).Nodup
  topicKeys : (config.topics.filterMap (·.2.accessKeyId)).Nodup
  topicArns : (config.topics.map (·.2.arn)).Nodup
  bucketNames : (config.buckets.map (·.2.bucketName)).Nodup
  isFifo : ∀ e ∈ config.queues, ∀ d, e.2.dlqName = some d → DeadLetter.isFifo d = e.2.isFifo
  topic : ∀ e ∈ config.queues, ∀ topicId, e.2.subscribeTopicId = some topicId → (config.topic? topicId).isSome

theorem Sound.exists_topic {config : Properties} (h : config.Sound) {e : String × QueueProperties}
    (he : e ∈ config.queues) {topicId : String} (ht : e.2.subscribeTopicId = some topicId) :
    ∃ t, (topicId, t) ∈ config.topics := by
  obtain ⟨t, hlookup⟩ := Option.isSome_iff_exists.mp (h.topic e he topicId ht)
  obtain ⟨before, after, hsplit, _⟩ := List.lookup_eq_some_iff.mp hlookup
  rw [hsplit]
  exact ⟨t, List.mem_append_right before List.mem_cons_self⟩

/-- Ids are the keys of tables: none stands for two queues or for two topics. -/
structure Keyed (config : Properties) : Prop where
  queues : (config.queues.map (·.1)).Nodup
  topics : (config.topics.map (·.1)).Nodup

open Validation in
theorem valid_of_validate {config : Properties} (h : validate config = .ok ()) : config.Valid := by
  obtain ⟨hids, hqueues, htopics, hbuckets⟩ := validate_eq_ok_iff_passes.mp h
  obtain ⟨hqueues, hschedule, hnames, hdlqNames, hkeys, hdlqKeys⟩ := checkQueues_eq_ok_iff.mp hqueues
  obtain ⟨htopics, harns, htopicKeys⟩ := checkTopics_eq_ok_iff.mp htopics
  obtain ⟨hbuckets, hbucketNames⟩ := checkBuckets_eq_ok_iff.mp hbuckets
  exact {
    ids := hids
    queues := hqueues
    schedule := hschedule
    queueNames := hnames
    dlqNames := hdlqNames
    queueKeys := hkeys
    dlqKeys := hdlqKeys
    topics := htopics
    topicArns := harns
    topicKeys := htopicKeys
    buckets := hbuckets
    bucketNames := hbucketNames }

theorem sound_of_validate {config : Properties} (h : validate config = .ok ()) : config.Sound := by
  have hvalid := valid_of_validate h
  exact {
    queueNames := hvalid.queueNames
    dlqNames := hvalid.dlqNames
    queueKeys := hvalid.queueKeys
    dlqKeys := hvalid.dlqKeys
    topicKeys := hvalid.topicKeys
    topicArns := hvalid.topicArns
    bucketNames := hvalid.bucketNames
    isFifo := fun e he d hd => ((hvalid.queues e he).dlqName d hd).2
    topic := by
      intro e he topicId ht
      obtain ⟨t, htopic, _⟩ := (hvalid.queues e he).topic topicId ht
      rw [htopic]
      rfl }

end Properties

open Validation in
/-- Validation accepts exactly the valid configurations: each rule is applied to every entry it is about, none hides
another one, and no pair of values that have to differ is missed. -/
theorem validate_eq_ok_iff (config : Properties) : validate config = .ok () ↔ config.Valid := by
  refine ⟨Properties.valid_of_validate, fun h => ?_⟩
  have hqueues := checkQueues_eq_ok_iff.mpr
    ⟨h.queues, h.schedule, h.queueNames, h.dlqNames, h.queueKeys, h.dlqKeys⟩
  have htopics := checkTopics_eq_ok_iff.mpr ⟨h.topics, h.topicArns, h.topicKeys⟩
  have hbuckets := checkBuckets_eq_ok_iff.mpr ⟨h.buckets, h.bucketNames⟩
  exact validate_eq_ok_iff_passes.mpr ⟨h.ids, hqueues, htopics, hbuckets⟩

end DeadLetter
