import HttpDns.Error
import HttpDns.Number.Decimal
import HttpDns.Resolution

/-!
# The answer cache

Resolutions by key, with counters of what the cache was asked and what it did. Expired entries are
dropped when they are looked up. An update of a live entry fills only the families it lacks, while
its lifetimes and its age become those of the update.
-/

namespace HttpDns

/-- What a cache has counted since it was last cleared. -/
structure Counters where
  hits : Nat := 0
  misses : Nat := 0
  /-- lookups that found an entry without all the families asked for -/
  partialHits : Nat := 0
  /-- expired entries dropped by a lookup -/
  lazyDeletions : Nat := 0
  insertions : Nat := 0
  merges : Nat := 0
  deriving DecidableEq, Repr

namespace Counters

/-- Hits among hits and misses, as a double-precision number with six decimals. -/
def hitRate (c : Counters) : String :=
  let rate := (Number.Binary64.ofRatio c.hits (c.hits + c.misses)).getD .zero
  Number.fixedPlaces 6 rate.ratio.1 rate.ratio.2

end Counters

/-- Resolutions by key, each key once. -/
abbrev Entries := List (String × Resolution)

namespace Entries

/-- The entry under a key. -/
def get? (es : Entries) (key : String) : Option Resolution :=
  match es with
  | [] => none
  | (k, r) :: rest => if k = key then some r else get? rest key

/-- The entries with this one under its key. -/
def put (es : Entries) (key : String) (r : Resolution) : Entries :=
  match es with
  | [] => [(key, r)]
  | (k, s) :: rest => if k = key then (k, r) :: rest else (k, s) :: put rest key r

/-- The entries without the one under a key. -/
def erase (es : Entries) (key : String) : Entries :=
  match es with
  | [] => []
  | (k, s) :: rest => if k = key then rest else (k, s) :: erase rest key

theorem get?_put (key : String) (r : Resolution) (k : String) : ∀ es : Entries,
    (es.put key r).get? k = if key = k then some r else es.get? k
  | [] => by simp [put, get?]
  | (k', s) :: rest => by
    have ih := get?_put key r k rest
    by_cases h : k' = key
    · subst h
      by_cases hk : k' = k <;> simp [put, get?, hk]
    · by_cases hk : k' = k
      · subst hk
        simp [put, get?, h, Ne.symm h]
      · simp [put, get?, h, hk, ih]

end Entries

structure Cache where
  entries : Entries := []
  counters : Counters := {}
  deriving DecidableEq, Repr

namespace Cache

def size (c : Cache) : Nat :=
  c.entries.length

def countMiss (c : Cache) : Cache :=
  { c with counters := { c.counters with misses := c.counters.misses + 1 } }

def countInsertion (c : Cache) : Cache :=
  { c with counters := { c.counters with insertions := c.counters.insertions + 1 } }

/-- The entry has something for the type: the family it names, or any where it asks for both. -/
def usable (r : Resolution) : QueryType → Bool
  | .a => !r.ips.isEmpty
  | .aaaa => !r.ipsv6.isEmpty
  | .both | .auto => !r.isEmpty

/-- Drops an expired entry. -/
def evict (c : Cache) (key : String) : Cache :=
  { c with
    entries := c.entries.erase key
    counters := { c.counters with lazyDeletions := c.counters.lazyDeletions + 1 } }

/-- Counts a lookup that found something for its type. -/
def countFound (c : Cache) (whole : Bool) : Cache :=
  { c with
    counters :=
      if whole then { c.counters with hits := c.counters.hits + 1 }
      else { c.counters with partialHits := c.counters.partialHits + 1 } }

/-- The live entry under a key at an instant, if it has something for the type. -/
def lookup (c : Cache) (key : String) (q : QueryType) (now : Nat) : Option Resolution × Cache :=
  match c.entries.get? key with
  | none => (none, c.countMiss)
  | some r =>
    if r.isExpiredAt now then (none, (c.evict key).countMiss)
    else if usable r q then (some r, c.countFound (r.satisfies q))
    else (none, c.countMiss)

/-- Inserts an entry under its key, which has to be new and not empty. -/
def add (c : Cache) (r : Resolution) : Except CacheFault Cache :=
  if r.cacheKey = "" then .error (.emptyKey r.host)
  else
    match c.entries.get? r.cacheKey with
    | some _ => .error (.exists r.cacheKey)
    | none => .ok { c with entries := c.entries.put r.cacheKey r }.countInsertion

/-- The live entry after an update: its families and its host stay, its lifetimes and age are
those of the update. -/
def refresh (stored update : Resolution) : Resolution :=
  { stored.fillGaps update with
    ttl := update.ttl
    originTtl := update.originTtl
    learnedAt := update.learnedAt
    clientIp := update.clientIp.or stored.clientIp }

/-- Inserts an entry under its key or merges it into the live one; an expired one is replaced, and
an entry without a key is dropped. -/
def update (c : Cache) (r : Resolution) : Cache :=
  if r.cacheKey = "" then c
  else
    match c.entries.get? r.cacheKey with
    | none => { c with entries := c.entries.put r.cacheKey r }.countInsertion
    | some stored =>
      if stored.isExpiredAt r.learnedAt then
        { c with entries := c.entries.put r.cacheKey r }.countInsertion
      else
        { entries := c.entries.put r.cacheKey (refresh stored r)
          counters := { c.counters with merges := c.counters.merges + 1 } }

/-- Drops the entry under a key; tells whether there was one. -/
def delete (c : Cache) (key : String) : Bool × Cache :=
  ((c.entries.get? key).isSome, { c with entries := c.entries.erase key })

/-- Moves the first address of each family of the entry under a key to the end. -/
def rotate (c : Cache) (key : String) : Cache :=
  match c.entries.get? key with
  | none => c
  | some r => { c with entries := c.entries.put key r.rotate }

end Cache

end HttpDns
