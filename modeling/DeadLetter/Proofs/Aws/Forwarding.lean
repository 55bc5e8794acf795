import DeadLetter.Aws.Sdk
import DeadLetter.Proofs.Dict
import Mathlib.Data.List.Forall2
import Mathlib.Data.List.Nodup

/-!
# Messages from a queue to a queue

Whatever client library is used, as long as its names tell system attributes apart and it builds an attribute that has a
type, holding what it was built from (`Sdk.Faithful`). A receive returns the messages of an answer that have an id and a
receipt handle, in order, each with all that the answer tells of it (`Sdk.carries_filterMap`). The attributes of such a
message can be built again, and what is built holds what was received (`Sdk.Faithful.buildAttributes`).
`Sdk.receive_forwards` puts these together.
-/

namespace DeadLetter.Aws

set_option autoImplicit false

/-- No map of a message has a key twice. -/
structure Delivery.Keyed {Name Value : Type} (d : Delivery Name Value) : Prop where
  system : ((d.system.getD []).map (·.1)).Nodup
  attributes : ((d.attributes.getD []).map (·.1)).Nodup

def Delivery.isWhole {Name Value : Type} (d : Delivery Name Value) : Bool := d.id.isSome && d.handle.isSome

namespace Sdk
variable {Name Value : Type} {sdk : Sdk Name Value} {d : Delivery Name Value} {m : Received}

/-- What is relied on of a client library. -/
structure Faithful (sdk : Sdk Name Value) : Prop where
  /-- Different names of system attributes have different texts. -/
  nameText : Function.Injective sdk.nameText
  /-- An attribute for which a type is set can be built, and holds what was set. -/
  build : ∀ dataType stringValue binaryValue, ∃ v, sdk.build ⟨some dataType, stringValue, binaryValue⟩ = .ok v ∧
    sdk.dataType v = dataType ∧ sdk.stringValue v = stringValue ∧ sdk.binaryValue v = binaryValue

/-- All that attributes hold, by name. -/
def contents (sdk : Sdk Name Value) (entries : List (String × Value)) :
    List (String × String × Option String × Option (List UInt8)) :=
  entries.map fun (name, v) => (name, sdk.dataType v, sdk.stringValue v, sdk.binaryValue v)

/-! ## What is received -/

/-- A received message is that of an answer: nothing of it is lost or added, and only a missing body is read as an empty
one. -/
structure Carries (sdk : Sdk Name Value) (d : Delivery Name Value) (m : Received) : Prop where
  id : d.id = some m.id
  handle : d.handle = some m.handle
  body : m.body = d.body.getD ""
  system : m.system.Perm ((d.system.getD []).map fun (name, text) => (sdk.nameText name, text))
  attributes : (m.attributes.map fun (name, a) => (name, a.dataType, a.stringValue, a.binaryValue)).Perm
    (sdk.contents (d.attributes.getD []))

theorem isSome_received? (sdk : Sdk Name Value) (d : Delivery Name Value) : (sdk.received? d).isSome = d.isWhole := by
  unfold received? Delivery.isWhole
  cases d.id <;> cases d.handle <;> rfl

theorem carries_of_received? (hsdk : sdk.Faithful) (hd : d.Keyed) (h : sdk.received? d = some m) :
    sdk.Carries d m := by
  obtain ⟨id, hid, h⟩ := Option.bind_eq_some_iff.mp h
  obtain ⟨handle, hhandle, h⟩ := Option.bind_eq_some_iff.mp h
  cases h
  refine ⟨hid, hhandle, rfl, Dict.perm_ofList ?_, ?_⟩
  · have hnames := List.Nodup.map hsdk.nameText hd.system
    simpa only [List.map_map, Function.comp_def] using hnames
  · have hnames : ((d.attributes.getD []).map fun (name, v) => (name, sdk.readAttribute v)).map (·.1) |>.Nodup := by
      simpa only [List.map_map, Function.comp_def] using hd.attributes
    have hperm := (Dict.perm_ofList hnames).map fun e => (e.1, e.2.dataType, e.2.stringValue, e.2.binaryValue)
    simpa only [contents, readAttribute, List.map_map, Function.comp_def] using hperm

/-- Of the messages of an answer the whole ones are received, in order. -/
theorem carries_filterMap (hsdk : sdk.Faithful) {ds : List (Delivery Name Value)} (hds : ∀ d ∈ ds, d.Keyed) :
    List.Forall₂ sdk.Carries (ds.filter Delivery.isWhole) (ds.filterMap sdk.received?) := by
  induction ds with
  | nil => exact .nil
  | cons d ds ih =>
    obtain ⟨hd, hds⟩ := List.forall_mem_cons.mp hds
    cases h : sdk.received? d with
    | none =>
      have hwhole : d.isWhole = false := by rw [← isSome_received? sdk d, h]; rfl
      rw [List.filter_cons_of_neg (by simp [hwhole]), List.filterMap_cons_none h]
      exact ih hds
    | some m =>
      have hwhole : d.isWhole = true := by rw [← isSome_received? sdk d, h]; rfl
      rw [List.filter_cons_of_pos hwhole, List.filterMap_cons_some h]
      exact .cons (carries_of_received? hsdk hd h) (ih hds)

/-! ## What is sent -/

theorem Faithful.buildAttribute (hsdk : sdk.Faithful) (a : AttributeValue) :
    ∃ v, sdk.buildAttribute a = .ok v ∧ sdk.readAttribute v = a := by
  obtain ⟨v, hbuild, hdata, hstring, hbinary⟩ := hsdk.build a.dataType a.stringValue a.binaryValue
  refine ⟨v, by rw [Sdk.buildAttribute, hbuild], ?_⟩
  rw [readAttribute, hdata, hstring, hbinary]

/-- Message attributes can always be built, and hold what they were built from, in the same order. -/
theorem Faithful.buildAttributes (hsdk : sdk.Faithful) (attributes : Attributes) :
    ∃ entries, sdk.buildAttributes attributes = .ok entries ∧
      entries.map (fun (name, v) => (name, sdk.readAttribute v)) = attributes := by
  induction attributes with
  | nil => exact ⟨[], rfl, rfl⟩
  | cons e attributes ih =>
    obtain ⟨name, a⟩ := e
    obtain ⟨v, hv, hread⟩ := hsdk.buildAttribute a
    obtain ⟨entries, hentries, hreads⟩ := ih
    refine ⟨(name, v) :: entries, ?_, by simp only [List.map_cons, hread, hreads]⟩
    unfold Sdk.buildAttributes at hentries ⊢
    rw [List.mapM_cons, hentries]
    dsimp only
    rw [hv]
    rfl

/-- The attributes of a received message can be turned back, which gives those of the answer, and these are what is sent
with any message that has the attributes. -/
def Returns (sdk : Sdk Name Value) (d : Delivery Name Value) (m : Received) : Prop :=
  ∃ entries, sdk.buildAttributes m.attributes = .ok entries ∧
    (sdk.contents entries).Perm (sdk.contents (d.attributes.getD [])) ∧
    ∀ out : Outbound, out.attributes = m.attributes → ∃ sent, sdk.outbound out = .ok sent ∧
      sent.attributes.getD [] = entries

theorem outbound_of_buildAttributes {out : Outbound} {entries : List (String × Value)}
    (h : sdk.buildAttributes out.attributes = .ok entries) :
    ∃ sent, sdk.outbound out = .ok sent ∧ sent.attributes.getD [] = entries := by
  unfold outbound
  rw [h]
  refine ⟨_, rfl, ?_⟩
  cases entries <;> rfl

theorem Carries.returns (h : sdk.Carries d m) (hsdk : sdk.Faithful) : sdk.Returns d m := by
  obtain ⟨entries, hbuild, hread⟩ := hsdk.buildAttributes m.attributes
  refine ⟨entries, hbuild, ?_, fun out hout => outbound_of_buildAttributes (hout ▸ hbuild)⟩
  have hcontents := h.attributes
  rw [← hread, List.map_map] at hcontents
  exact hcontents

/-- A receive returns the whole messages of an answer, in order and with all that the answer tells of them. The message
attributes of each can be turned back for a send, which gives those of the answer. -/
theorem receive_forwards (hsdk : sdk.Faithful) {ds : List (Delivery Name Value)} (hds : ∀ d ∈ ds, d.Keyed) :
    ∃ ms, sdk.receive (.ok ds) = .ok ms ∧
      List.Forall₂ (fun d m => sdk.Carries d m ∧ sdk.Returns d m) (ds.filter Delivery.isWhole) ms :=
  ⟨_, rfl, (carries_filterMap hsdk hds).imp fun _ _ h => ⟨h, h.returns hsdk⟩⟩

theorem plain_faithful : plain.Faithful where
  nameText _ _ h := h
  build dataType stringValue binaryValue := ⟨⟨dataType, stringValue, binaryValue⟩, rfl, rfl, rfl, rfl⟩

/-- An answer with three messages, of which the second has no receipt handle. -/
def batch : List (Delivery String PlainAttribute) :=
  [⟨some "m-1", some "r-1", some "released", some [("SentTimestamp", "17"), ("ApproximateReceiveCount", "2")],
      some [("image", ⟨"Binary.png", none, some [0, 255]⟩), ("eventType", ⟨"String", some "PRISONER-RELEASED", none⟩)]⟩,
    ⟨some "m-2", none, some "lost", none, none⟩,
    ⟨some "m-3", some "r-3", none, none, none⟩]

/-- The first and the third message are received. The first keeps a text and an image, which can be sent on. -/
theorem receive_forwards_batch :
    plain.Faithful ∧ (∀ d ∈ batch, d.Keyed) ∧
    ∃ first third entries, plain.receive (.ok batch) = .ok [first, third] ∧ third.id = "m-3" ∧ third.body = "" ∧
      first.system.Perm [("SentTimestamp", "17"), ("ApproximateReceiveCount", "2")] ∧
      plain.buildAttributes first.attributes = .ok entries ∧
      (plain.contents entries).Perm
        [("image", "Binary.png", none, some [0, 255]), ("eventType", "String", some "PRISONER-RELEASED", none)] := by
  have hkeyed : ∀ d ∈ batch, d.Keyed := by
    have hnodup : ∀ d ∈ batch, ((d.system.getD []).map (·.1)).Nodup ∧ ((d.attributes.getD []).map (·.1)).Nodup := by
      decide
    exact fun d hd => ⟨(hnodup d hd).1, (hnodup d hd).2⟩
  obtain ⟨ms, hms, hforwards⟩ := receive_forwards plain_faithful hkeyed
  rw [show batch.filter Delivery.isWhole = [batch[0], batch[2]] from rfl] at hforwards
  cases hforwards with
  | cons hfirst hrest =>
    cases hrest with
    | cons hthird hnil =>
      cases hnil
      obtain ⟨hcarries, entries, hbuild, hcontents, _⟩ := hfirst
      refine ⟨plain_faithful, hkeyed, _, _, entries, hms, ?_, hthird.1.body, hcarries.system, hbuild, hcontents⟩
      exact (Option.some.inj hthird.1.id).symm

end Sdk

end DeadLetter.Aws
