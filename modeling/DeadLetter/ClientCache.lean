import DeadLetter.Dict

/-!
# Client caches

A cache keeps one client for each key. Making a client may change a state, and happens only for a key that has none:
`getOrCreate_of_get?` and `getOrCreate_of_none` say what a request does in the two cases.
-/

namespace DeadLetter

set_option autoImplicit false

/-- The clients made so far, by key. -/
structure ClientCache (α : Type) where
  clients : Dict α
deriving DecidableEq, Repr

namespace ClientCache
variable {α σ : Type}

def empty : ClientCache α := ⟨[]⟩

def size (c : ClientCache α) : Nat := c.clients.length

def isEmpty (c : ClientCache α) : Bool := c.size == 0

/-- The client under a key, made on first use. -/
def getOrCreate (c : ClientCache α) (key : String) (create : σ → α × σ) (s : σ) : α × ClientCache α × σ :=
  match c.clients.get? key with
  | some a => (a, c, s)
  | none =>
    let (a, s) := create s
    (a, ⟨c.clients.put key a⟩, s)

theorem getOrCreate_of_get? {c : ClientCache α} {key : String} {a : α} (h : c.clients.get? key = some a)
    (create : σ → α × σ) (s : σ) : c.getOrCreate key create s = (a, c, s) := by
  simp [getOrCreate, h]

theorem getOrCreate_of_none {c : ClientCache α} {key : String} (h : c.clients.get? key = none)
    (create : σ → α × σ) (s : σ) :
    c.getOrCreate key create s = ((create s).1, ⟨c.clients.put key (create s).1⟩, (create s).2) := by
  simp [getOrCreate, h]

end ClientCache

end DeadLetter
