import HttpDns.Proofs.Unions
import HttpDns.Reply
import HttpDns.Resolution
import Mathlib.Data.List.Forall2
import Mathlib.Data.List.Nodup

/-!
# Where the addresses of an entry go

Empty and repeated addresses are dropped in two places: when an entry is read, and when its answer
becomes a resolution. Together they leave each address of the entry once, where it is first given
(`holdsFirst_ofAddrs`, `ofAddrs_appendNew`), in the family the entry gives it for; and an entry of
the IPv6 record type gives all of its addresses for IPv6 (`entries_conserved`).
-/

namespace HttpDns

/-! ## Addresses as they are first given -/

/-- The list holds the given addresses without the empty one, each once, in the order in which they
are first given. -/
structure HoldsFirst (given held : List String) : Prop where
  mem_iff : ∀ a, a ∈ held ↔ a ∈ given ∧ a ≠ ""
  nodup : held.Nodup
  ordered : held.Pairwise fun a b => given.idxOf a < given.idxOf b

namespace HoldsFirst

variable {given held : List String} {x : String}

theorem nil : HoldsFirst [] [] :=
  ⟨by simp, .nil, .nil⟩

/-- What is given later does not change where the addresses were first given. -/
theorem ordered_append (h : HoldsFirst given held) (more : List String) :
    held.Pairwise fun a b => (given ++ more).idxOf a < (given ++ more).idxOf b := by
  refine h.ordered.imp_of_mem fun {a b} ha hb hlt => ?_
  rwa [List.idxOf_append_of_mem ((h.mem_iff a).1 ha).1,
    List.idxOf_append_of_mem ((h.mem_iff b).1 hb).1]

theorem skip (h : HoldsFirst given held) (hx : x = "" ∨ x ∈ held) :
    HoldsFirst (given ++ [x]) held := by
  refine ⟨fun a => ?_, h.nodup, h.ordered_append [x]⟩
  rw [h.mem_iff, List.mem_append, List.mem_singleton]
  refine ⟨fun ⟨ha, hne⟩ => ⟨.inl ha, hne⟩, ?_⟩
  rintro ⟨ha | rfl, hne⟩
  · exact ⟨ha, hne⟩
  · exact ⟨((h.mem_iff a).1 (hx.resolve_left hne)).1, hne⟩

theorem add (h : HoldsFirst given held) (hne : x ≠ "") (hnew : x ∉ held) :
    HoldsFirst (given ++ [x]) (held ++ [x]) := by
  have hx : x ∉ given := fun hx => hnew ((h.mem_iff x).2 ⟨hx, hne⟩)
  refine ⟨fun a => ?_, ?_, ?_⟩
  · simp only [List.mem_append, List.mem_singleton, h.mem_iff]
    refine ⟨?_, fun ⟨ha, hne'⟩ => ha.imp_left (⟨·, hne'⟩)⟩
    rintro (⟨ha, hne'⟩ | rfl)
    · exact ⟨.inl ha, hne'⟩
    · exact ⟨.inr rfl, hne⟩
  · rw [List.nodup_append_comm]
    exact List.nodup_cons.2 ⟨hnew, h.nodup⟩
  · refine List.pairwise_append.2 ⟨h.ordered_append [x], List.pairwise_singleton _ _, ?_⟩
    intro a ha b hb
    obtain rfl := List.mem_singleton.1 hb
    have hmem : a ∈ given := ((h.mem_iff a).1 ha).1
    rw [List.idxOf_append_of_mem hmem, List.idxOf_append_of_notMem hx]
    exact Nat.lt_of_lt_of_le (List.idxOf_lt_length_iff.2 hmem) (Nat.le_add_right _ _)

end HoldsFirst

namespace Endpoints

/-- A merge goes on where the list stands: it holds what was given before and what is merged. -/
theorem holdsFirst_merge : ∀ (rest : List String) {given : List String} {l : Endpoints},
    HoldsFirst given l.addrs → HoldsFirst (given ++ rest) (l.merge rest).addrs
  | [], given, l, h => by rwa [List.append_nil, merge]
  | x :: rest, given, l, h => by
    rw [List.append_cons, merge]
    split
    · rename_i hx
      exact holdsFirst_merge rest (h.skip (hx.imp_right contains_iff.1))
    · rename_i hx
      obtain ⟨hne, hnew⟩ := not_or.1 hx
      refine holdsFirst_merge rest ?_
      have hadded := h.add hne (mt contains_iff.2 hnew)
      rwa [addrs, List.map_append]

theorem holdsFirst_ofAddrs (given : List String) : HoldsFirst given (ofAddrs given).addrs := by
  have hnil : HoldsFirst [] (addrs []) := .nil
  simpa [ofAddrs] using holdsFirst_merge given hnil

theorem merge_nonEmpty (addrs : List String) (l : Endpoints) :
    l.merge (Reply.nonEmpty addrs) = l.merge addrs := by
  rw [merge_eq, merge_eq, Reply.nonEmpty, newcomers_filter]

/-- Whether an address that is there already is left out at once or later makes no difference. -/
theorem ofAddrs_appendNew : ∀ ys xs : List String,
    ofAddrs (Reply.appendNew xs ys) = ofAddrs (xs ++ ys)
  | [], xs => by rw [Reply.appendNew, List.append_nil]
  | y :: ys, xs => by
    rw [Reply.appendNew]
    split
    · rename_i hy
      have hknown : y = "" ∨ (ofAddrs xs).contains y := or_iff_not_imp_left.2 fun hne =>
        contains_iff.2 (((holdsFirst_ofAddrs xs).mem_iff y).2 ⟨hy, hne⟩)
      rw [ofAddrs_appendNew ys xs, ofAddrs, ofAddrs, merge_append, merge_append, merge,
        ← ofAddrs, if_pos hknown]
    · rw [ofAddrs_appendNew ys (xs ++ [y]), List.append_assoc, List.singleton_append]

theorem ofAddrs_nonEmpty (addrs : List String) : ofAddrs (Reply.nonEmpty addrs) = ofAddrs addrs :=
  merge_nonEmpty addrs []

theorem ofAddrs_nonEmpty_append (xs ys : List String) :
    ofAddrs (Reply.nonEmpty xs ++ Reply.nonEmpty ys) = ofAddrs (xs ++ ys) := by
  rw [← ofAddrs_nonEmpty (xs ++ ys), Reply.nonEmpty, Reply.nonEmpty, Reply.nonEmpty,
    List.filter_append]

end Endpoints

/-! ## Entries -/

namespace Reply

/-- The resolution has the addresses of the entry in the families the entry gives them for: none is
lost, none is there twice, and all of them are IPv6 if the entry is of the IPv6 record type. -/
structure Conserves (e : Entry) (r : Resolution) : Prop where
  host_eq : r.host = e.host
  ips : HoldsFirst (if e.recordType = 28 then [] else e.ips) r.ips.addrs
  ipsv6 : HoldsFirst (if e.recordType = 28 then e.ips ++ e.ipsv6 else e.ipsv6) r.ipsv6.addrs
  kept_iff : ∀ a, a ∈ r.ips.addrs ∨ a ∈ r.ipsv6.addrs ↔ (a ∈ e.ips ∨ a ∈ e.ipsv6) ∧ a ≠ ""
  no_ips : e.recordType = 28 → r.ips = []
  lifetimes_eq : r.ttl = e.ttl ∧ r.originTtl = e.originTtl

theorem ips_ofAnswer (e : Entry) (key : String) (now : Nat) :
    (Resolution.ofAnswer e.answer key now).ips
      = Endpoints.ofAddrs (if e.recordType = 28 then [] else e.ips) := by
  show Endpoints.ofAddrs (if e.recordType = 28 then [] else nonEmpty e.ips) = _
  split
  · rfl
  · exact Endpoints.ofAddrs_nonEmpty e.ips

theorem ipsv6_ofAnswer (e : Entry) (key : String) (now : Nat) :
    (Resolution.ofAnswer e.answer key now).ipsv6
      = Endpoints.ofAddrs (if e.recordType = 28 then e.ips ++ e.ipsv6 else e.ipsv6) := by
  show Endpoints.ofAddrs
    (appendNew (if e.recordType = 28 then nonEmpty e.ips else []) (nonEmpty e.ipsv6)) = _
  rw [Endpoints.ofAddrs_appendNew]
  split
  · exact Endpoints.ofAddrs_nonEmpty_append e.ips e.ipsv6
  · exact Endpoints.ofAddrs_nonEmpty e.ipsv6

theorem conserves_ofAnswer (e : Entry) (key : String) (now : Nat) :
    Conserves e (Resolution.ofAnswer e.answer key now) := by
  have hips := Endpoints.holdsFirst_ofAddrs (if e.recordType = 28 then [] else e.ips)
  have hipsv6 := Endpoints.holdsFirst_ofAddrs
    (if e.recordType = 28 then e.ips ++ e.ipsv6 else e.ipsv6)
  rw [← ips_ofAnswer e key now] at hips
  rw [← ipsv6_ofAnswer e key now] at hipsv6
  refine ⟨rfl, hips, hipsv6, fun a => ?_, fun htype => ?_, rfl, rfl⟩
  · rw [hips.mem_iff, hipsv6.mem_iff, ← or_and_right]
    split <;> simp
  · rw [ips_ofAnswer, if_pos htype]
    rfl

/-- A body that lists entries gives one resolution for each of them that names a host, in their
order, and none of their addresses is lost, repeated or put into another family than the entry gives
it for. -/
theorem entries_conserved {body : String} {entries : List Entry}
    (h : (Json.parse body.toList).bind multi? = some entries) (key : String → String) (now : Nat) :
    List.Forall₂ Conserves (entries.filter (·.host ≠ ""))
      ((readMulti body).map fun a => Resolution.ofAnswer a (key a.host) now) := by
  rw [readMulti, h, Option.getD_some, answers, List.map_map, List.forall₂_map_right_iff]
  exact List.forall₂_same.2 fun e _ => conserves_ofAnswer e (key e.host) now

/-- An entry of the IPv6 record type whose lists overlap, one that names no host, and one whose type
is not stated. -/
theorem entries_conserved_overlapping :
    let body := "\x7b\"dns\":["
      ++ "\x7b\"host\":\"a.com\",\"ips\":[\"2001:db8::1\",\"\",\"2001:db8::2\",\"2001:db8::1\"],"
      ++ "\"ipsv6\":[\"2001:db8::2\",\"2001:db8::3\"],\"type\":28,\"ttl\":60\x7d,"
      ++ "\x7b\"ips\":[\"192.0.2.9\"]\x7d,"
      ++ "\x7b\"host\":\"b.com\",\"ips\":[\"192.0.2.1\"],\"ipsv6\":[\"2001:db8::4\"]\x7d]\x7d"
    let a : Entry :=
      ⟨"a.com", ["2001:db8::1", "", "2001:db8::2", "2001:db8::1"], ["2001:db8::2", "2001:db8::3"],
        28, 60, 0, none⟩
    let nameless : Entry := ⟨"", ["192.0.2.9"], [], 1, 0, 0, none⟩
    let b : Entry := ⟨"b.com", ["192.0.2.1"], ["2001:db8::4"], 1, 0, 0, none⟩
    let results := (readMulti body).map fun x => Resolution.ofAnswer x x.host 0
    (Json.parse body.toList).bind multi? = some [a, nameless, b]
      ∧ List.Forall₂ Conserves [a, b] results
      ∧ results.map (·.ips.addrs) = [[], ["192.0.2.1"]]
      ∧ results.map (·.ipsv6.addrs)
        = [["2001:db8::1", "2001:db8::2", "2001:db8::3"], ["2001:db8::4"]] := by
  intro body a nameless b results
  have hread : (Json.parse body.toList).bind multi? = some [a, nameless, b] := by decide +kernel
  have hresults : results = (answers [a, nameless, b]).map fun x =>
      Resolution.ofAnswer x x.host 0 := by
    simp only [results, readMulti, hread, Option.getD_some]
  refine ⟨hread, entries_conserved hread id 0, ?_, ?_⟩ <;> rw [hresults] <;> decide

end Reply

end HttpDns
