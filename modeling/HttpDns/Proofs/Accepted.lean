import HttpDns.Proofs.BatchRequests

/-!
# What an accepted request names

A request is accepted by its host text, but the hosts that are sent are the pieces of this text.
Each of them is a name that is not blank, and the URL is signed exactly when the request asks for
it. That there is a host at all needs a character other than a comma and a blank: without one a
batched request is accepted that names no host, and its URL has an empty host parameter
(`accepted_names_iff`).
-/

namespace HttpDns

namespace Text

/-- The pieces hold the characters of the text other than the separator. -/
theorem mem_pieces_iff {sep c : Char} {cs : List Char} :
    (∃ piece ∈ split sep cs, c ∈ piece) ↔ c ∈ cs ∧ c ≠ sep := by
  have hjoin : join sep (split sep cs) = cs := join_split cs
  constructor
  · rintro ⟨piece, hpiece, hc⟩
    refine ⟨?_, fun heq => not_mem_split cs piece hpiece (heq ▸ hc)⟩
    rw [← hjoin]
    exact mem_join_of_mem hpiece hc
  · rintro ⟨hc, hne⟩
    rw [← hjoin] at hc
    exact (Url.mem_join hc).resolve_left hne

theorem allBlank_eq_false_iff {s : String} :
    allBlank s = false ↔ ∃ c ∈ s.toList, isBlank c = false := by
  simp [allBlank]

end Text

namespace Request

open Text

/-- The host text holds more than commas and blanks, unless it is one host as it stands. -/
def NamesHost (r : Request) : Prop :=
  r.usingMulti = true → ∃ c ∈ r.host.toList, c ≠ ',' ∧ isBlank c = false

-- over the characters of the text, as there are too many others
instance (r : Request) : Decidable r.NamesHost :=
  haveI : Decidable (∃ c ∈ r.host.toList, c ≠ ',' ∧ isBlank c = false) := List.decidableBEx _ _
  inferInstanceAs (Decidable (r.usingMulti = true → _))

theorem trimmedNames_splitText_ne_nil_iff {sep : Char} {s : String} :
    trimmedNames (splitText sep s) ≠ [] ↔ ∃ c ∈ s.toList, c ≠ sep ∧ isBlank c = false := by
  calc trimmedNames (splitText sep s) ≠ []
      ↔ ∃ piece ∈ split sep s.toList, ∃ c ∈ piece, isBlank c = false := by
        simp [trimmedNames_ne_nil_iff, splitText, allBlank_eq_false_iff]
    _ ↔ ∃ c, (∃ piece ∈ split sep s.toList, c ∈ piece) ∧ isBlank c = false := by
        grind
    _ ↔ ∃ c ∈ s.toList, c ≠ sep ∧ isBlank c = false := by
        simp only [mem_pieces_iff, and_assoc]

theorem hosts_ne_nil_iff {r : Request} : r.hosts ≠ [] ↔ r.NamesHost := by
  cases hmulti : r.usingMulti with
  | false => simp [hosts, NamesHost, hmulti]
  | true =>
    have hhosts : r.hosts = trimmedNames (splitText ',' r.host) := by simp [hosts, hmulti]
    rw [hhosts, trimmedNames_splitText_ne_nil_iff]
    simp [NamesHost, hmulti]

/-- What is checked of a request. -/
theorem fault?_eq_none_iff {r : Request} : r.fault? = none ↔
    allBlank r.host = false ∧ r.accountId ≠ ""
      ∧ (r.usingMulti = true → r.cacheKey = none ∧ r.hosts.length ≤ maxHostsPerBatch)
      ∧ (r.usingSign = true → noSecret r.secretKey = false) := by
  unfold fault?
  cases r.usingMulti <;> cases r.usingSign <;> split_ifs
    <;> simp_all [Option.isSome_iff_ne_none]

section

variable {r : Request} (h : r.fault? = none)

include h

theorem not_allBlank_of_mem_hosts {name : String} (hname : name ∈ r.hosts) :
    allBlank name = false := by
  cases hmulti : r.usingMulti with
  | false =>
    obtain rfl : name = r.host := by simpa [hosts, hmulti] using hname
    exact (fault?_eq_none_iff.1 h).1
  | true => exact not_allBlank_of_mem (by simpa [hosts, hmulti] using hname)

theorem isSigned_iff_usingSign : Url.isSigned r = true ↔ r.usingSign = true :=
  ⟨fun hsigned => (Bool.and_eq_true_iff.1 hsigned).1, Url.isSigned_of_accepted h⟩

end

end Request

namespace Url

open Text

theorem values_host_heard (sender : Sender) (r : Request) (q : QueryType) (now : Nat) :
    (heard sender r q now).values "host" = readHosts r := by
  simp [heard, Reading.values]

theorem names_heard (sender : Sender) (r : Request) (q : QueryType) (now : Nat) :
    (heard sender r q now).names = (told sender r q now).names := by
  simp [heard, told, Reading.names]

/-- The hosts read as none, or as an empty one, only if there are none. -/
theorem readHosts_ne_iff {r : Request} (h : r.fault? = none) :
    readHosts r ≠ [] ∧ (readHosts r ≠ [""] ↔ r.hosts ≠ []) := by
  unfold readHosts
  split
  · rename_i hnone
    simp [hnone]
  · rename_i hsome
    refine ⟨hsome, fun _ => hsome, fun _ hempty => ?_⟩
    have hblank : allBlank "" = false := Request.not_allBlank_of_mem_hosts h (by simp [hempty])
    cases hblank

/-- The hosts of a request that is accepted are names that are not blank, in a batch not too many of
them. There is one, and the host parameter is not empty, exactly if the request is not batched or
its text holds more than commas and blanks. The URL has a signed operation and a signature exactly
if the request asks for it. -/
theorem accepted_names_iff {r : Request} (h : r.fault? = none) (sender : Sender) (server : String)
    (q : QueryType) (now : Nat) :
    (∀ name ∈ r.hosts, allBlank name = false)
      ∧ (r.usingMulti = true → r.hosts.length ≤ maxHostsPerBatch)
      ∧ (r.hosts ≠ [] ↔ r.NamesHost)
      ∧ ∃ tail t,
        resolve sender r server q now
            = schemeName r.usingHttps ++ "://" ++ formatServer server ++ "/" ++ String.ofList tail
          ∧ readTail tail = some t
          ∧ t.values "host" = (if r.hosts = [] then [""] else r.hosts)
          ∧ (t.values "host" ≠ [""] ↔ r.NamesHost)
          ∧ ("sign_".toList <+: t.operation.toList ↔ r.usingSign = true)
          ∧ ∀ name ∈ ["s", "t"], name ∈ t.names ↔ r.usingSign = true := by
  refine ⟨fun name hname => Request.not_allBlank_of_mem_hosts h hname,
    fun hmulti => ((Request.fault?_eq_none_iff.1 h).2.2.1 hmulti).2, Request.hosts_ne_nil_iff,
    _, heard sender r q now, rfl, readTail_eq_heard sender r q now, ?_, ?_, ?_, ?_⟩
  · rw [values_host_heard, readHosts]
  · rw [values_host_heard, (readHosts_ne_iff h).2, Request.hosts_ne_nil_iff]
  · exact (sign_prefix_operation_iff r).trans (Request.isSigned_iff_usingSign h)
  · intro name hname
    rw [names_heard, mem_names_iff_isSigned sender r q now hname,
      Request.isSigned_iff_usingSign h]

/-- A batch with blanks and an empty piece, sent signed. -/
theorem accepted_names_pair :
    let r : Request :=
      { host := " a.com ,,b.com", accountId := "100000", secretKey := some "key", usingSign := true
        usingMulti := true }
    let sender : Sender := ⟨Signature.sign, "linux", "0.3.1", 1800000⟩
    (r.fault? = none ∧ r.NamesHost) ∧ r.hosts ≠ [] ∧ ∃ tail t,
      resolve sender r "203.0.113.7" .both 0 = "https://203.0.113.7/" ++ String.ofList tail
        ∧ readTail tail = some t ∧ t.values "host" = ["a.com", "b.com"]
        ∧ "sign_".toList <+: t.operation.toList ∧ "s" ∈ t.names ∧ "t" ∈ t.names := by
  intro r sender
  have h : r.fault? = none := by decide +kernel
  have hnames : r.NamesHost := by decide +kernel
  obtain ⟨-, -, hsome, tail, t, hurl, hread, hvalues, -, hoperation, hsignature⟩ :=
    accepted_names_iff h sender "203.0.113.7" .both 0
  have hserver : schemeName r.usingHttps ++ "://" ++ formatServer "203.0.113.7" ++ "/"
      = "https://203.0.113.7/" := by decide +kernel
  have hhosts : (if r.hosts = [] then [""] else r.hosts) = ["a.com", "b.com"] := by
    decide +kernel
  rw [hserver] at hurl
  exact ⟨⟨h, hnames⟩, hsome.2 hnames, tail, t, hurl, hread, hvalues.trans hhosts,
    hoperation.2 rfl, (hsignature "s" (by simp)).2 rfl, (hsignature "t" (by simp)).2 rfl⟩

/-- A batch that is no more than a comma is accepted, and asks a server for no host. -/
theorem comma_names_no_host :
    let r : Request := { host := ",", accountId := "100000", usingMulti := true }
    let sender : Sender := ⟨Signature.sign, "linux", "0.3.1", 1800000⟩
    r.fault? = none ∧ r.hosts = [] ∧ ¬ r.NamesHost
      ∧ resolve sender r "203.0.113.7" .a 0
        = "https://203.0.113.7/100000/resolve?host=&query=4&platform=linux&sdk_version=0.3.1" := by
  decide +kernel

end Url

end HttpDns
