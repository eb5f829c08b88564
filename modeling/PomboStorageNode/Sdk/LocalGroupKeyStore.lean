import PomboStorageNode.Library.Delimited
import PomboStorageNode.Library.OrderedMap
import PomboStorageNode.Sdk.StreamMessage

/-!
# The local store of group keys

`LocalGroupKeyStore.ts` keeps the data of a key under a text that joins the publisher and the id of
the key. The id of a publisher contains no colon, so different keys are under different texts
(`formLookupKey1_inj`). A key is checked when it is read (`GroupKey.create`), since not every writer
has checked it. `GroupKeyManager.storeKey` also records the key as the latest one of its stream; the
stream plays no role when a key is looked up by its id.
-/

set_option autoImplicit false

namespace PomboStorageNode.Sdk

open Library

/-! ### Keys -/

/-- The errors of the constructor of `GroupKey`. -/
inductive GroupKeyError
  | falseyId
  | notAKeyId
  | wrongSize (bits : ℕ)
  deriving DecidableEq

/-- `GroupKey`: an id and the data, as the constructor accepts them. -/
@[ext]
structure GroupKey where
  id : String
  data : List UInt8
  id_ne : id ≠ ""
  id_begin : ¬ "---BEGIN".toList <:+: id.toList
  length_eq : data.length = 32

instance : DecidableEq GroupKey := fun _ _ ↦ decidable_of_iff' _ GroupKey.ext_iff

/-- The constructor of `GroupKey`. -/
def GroupKey.create (id : String) (data : List UInt8) : Except GroupKeyError GroupKey :=
  if hid : id = "" then .error .falseyId
  else if hbegin : "---BEGIN".toList <:+: id.toList then .error .notAKeyId
  else if hlength : data.length = 32 then .ok ⟨id, data, hid, hbegin, hlength⟩
  else .error (.wrongSize (data.length * 8))

/-- The constructor accepts what it has accepted. -/
theorem GroupKey.create_self (key : GroupKey) : create key.id key.data = .ok key := by
  rw [create, dif_neg key.id_ne, dif_neg key.id_begin, dif_pos key.length_eq]

theorem GroupKey.create_eq_ok {id : String} {data : List UInt8} {key : GroupKey}
    (hcreate : create id data = .ok key) : key.id = id ∧ key.data = data := by
  unfold create at hcreate
  split_ifs at hcreate with hid hbegin hlength
  cases hcreate
  exact ⟨rfl, rfl⟩

/-! ### The store -/

/-- `formLookupKey1`. -/
def formLookupKey1 (keyId publisherId : String) : String := publisherId ++ "::" ++ keyId

/-- `formLookupKey2`. -/
def formLookupKey2 (publisherId streamId : String) : String := publisherId ++ "::" ++ streamId

/-- Different keys are looked up differently.
Assumes: the ids of the publishers contain no colon. -/
theorem formLookupKey1_inj {firstId secondId firstPublisher secondPublisher : String}
    (hfirst : ':' ∉ firstPublisher.toList) (hsecond : ':' ∉ secondPublisher.toList)
    (heq : formLookupKey1 firstId firstPublisher = formLookupKey1 secondId secondPublisher) :
    firstId = secondId ∧ firstPublisher = secondPublisher := by
  have hlist := congrArg String.toList heq
  simp only [formLookupKey1, String.toList_append, List.append_assoc] at hlist
  obtain ⟨hpublisher, hrest⟩ := Delimited.append_cons_inj_of_count
    ((List.count_eq_zero.mpr hfirst).trans (List.count_eq_zero.mpr hsecond).symm) hlist
  exact ⟨String.toList_inj.mp (List.cons.inj hrest).2, String.toList_inj.mp hpublisher⟩

/-- `LocalGroupKeyStore`: the data of the keys, and the latest key of each publisher and stream. -/
structure LocalGroupKeyStore where
  encryptionKeys : OrderedMap String (List UInt8)
  latestKeyIds : OrderedMap String String

namespace LocalGroupKeyStore

/-- A store without keys. -/
def empty : LocalGroupKeyStore := ⟨.empty, .empty⟩

/-- The data under a key id and a publisher. -/
def dataOf (store : LocalGroupKeyStore) (keyId publisherId : String) : Option (List UInt8) :=
  store.encryptionKeys.get? (formLookupKey1 keyId publisherId)

/-- `get`. -/
def get (store : LocalGroupKeyStore) (keyId publisherId : String) :
    Except GroupKeyError (Option GroupKey) :=
  match store.dataOf keyId publisherId with
  | some value => (GroupKey.create keyId value).map some
  | none => .ok none

/-- `set`. -/
def set (store : LocalGroupKeyStore) (keyId publisherId : String) (data : List UInt8) :
    LocalGroupKeyStore :=
  { store with
    encryptionKeys := store.encryptionKeys.set (formLookupKey1 keyId publisherId) data }

/-- `setLatestEncryptionKeyId`. -/
def setLatestEncryptionKeyId (store : LocalGroupKeyStore) (keyId publisherId streamId : String) :
    LocalGroupKeyStore :=
  { store with
    latestKeyIds := store.latestKeyIds.set (formLookupKey2 publisherId streamId) keyId }

@[simp] theorem dataOf_setLatest (store : LocalGroupKeyStore)
    (keyId publisherId streamId id publisher : String) :
    (store.setLatestEncryptionKeyId keyId publisherId streamId).dataOf id publisher =
      store.dataOf id publisher := rfl

theorem dataOf_set_self (store : LocalGroupKeyStore) (keyId publisherId : String)
    (data : List UInt8) : (store.set keyId publisherId data).dataOf keyId publisherId = some data :=
  OrderedMap.get?_set_self ..

/-- Storing a key leaves the other keys alone.
Assumes: the ids of the publishers contain no colon. -/
theorem dataOf_set_of_ne (store : LocalGroupKeyStore) {keyId publisherId id publisher : String}
    (data : List UInt8) (hpublisherId : ':' ∉ publisherId.toList)
    (hpublisher : ':' ∉ publisher.toList) (hne : ¬ (id = keyId ∧ publisher = publisherId)) :
    (store.set keyId publisherId data).dataOf id publisher = store.dataOf id publisher :=
  OrderedMap.get?_set_of_ne _ _ fun heq ↦ hne (formLookupKey1_inj hpublisher hpublisherId heq)

/-- A key that was not found is not stored. -/
theorem dataOf_of_get_none {store : LocalGroupKeyStore} {keyId publisherId : String}
    (hget : store.get keyId publisherId = .ok none) : store.dataOf keyId publisherId = none := by
  unfold get at hget
  cases hdata : store.dataOf keyId publisherId with
  | none => rfl
  | some value =>
    rw [hdata] at hget
    dsimp only at hget
    cases hcreate : GroupKey.create keyId value <;> rw [hcreate] at hget <;> cases hget

/-- No key goes away. -/
theorem dataOf_set_ne_none {store : LocalGroupKeyStore} {id publisher : String}
    (hstored : store.dataOf id publisher ≠ none) (keyId publisherId : String) (data : List UInt8) :
    (store.set keyId publisherId data).dataOf id publisher ≠ none := by
  by_cases heq : formLookupKey1 id publisher = formLookupKey1 keyId publisherId
  · rw [dataOf, heq, set, OrderedMap.get?_set_self]
    exact Option.some_ne_none data
  · rw [dataOf, set, OrderedMap.get?_set_of_ne _ _ heq]
    exact hstored

/-- A key that was found has the data that are stored. -/
theorem dataOf_of_get {store : LocalGroupKeyStore} {keyId publisherId : String} {key : GroupKey}
    (hget : store.get keyId publisherId = .ok (some key)) :
    key.id = keyId ∧ store.dataOf keyId publisherId = some key.data := by
  unfold get at hget
  cases hdata : store.dataOf keyId publisherId with
  | none =>
    rw [hdata] at hget
    cases hget
  | some value =>
    rw [hdata] at hget
    dsimp only at hget
    cases hcreate : GroupKey.create keyId value with
    | error error =>
      rw [hcreate] at hget
      cases hget
    | ok created =>
      rw [hcreate] at hget
      cases hget
      obtain ⟨hid, hvalue⟩ := GroupKey.create_eq_ok hcreate
      exact ⟨hid, congrArg some hvalue.symm⟩

end LocalGroupKeyStore

end PomboStorageNode.Sdk
