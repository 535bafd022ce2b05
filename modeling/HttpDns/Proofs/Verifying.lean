import HttpDns.Proofs.Reading

/-!
# Signatures as a server checks them

A server that checks a signed resolve URL has the hosts that it reads there, not the text that was
signed. With commas between them these hosts are that text if and only if the request is tidy: its
hosts are written without blanks around them and none of them is empty. A tidy request passes the
check; for any other one the server hashes another text (`signature_checks_iff`).
-/

namespace HttpDns

open Text

/-- The hosts of a batched request are written as they are sent. -/
def Request.IsTidy (r : Request) : Prop :=
  r.usingMulti = true → ∀ piece ∈ splitText ',' r.host, piece ≠ "" ∧ trim piece = piece

instance (r : Request) : Decidable r.IsTidy :=
  inferInstanceAs (Decidable (_ → ∀ _ ∈ _, _))

namespace Request

theorem mem_trimmedNames {names : List String} {name : String} :
    name ∈ trimmedNames names ↔ name ≠ "" ∧ ∃ s ∈ names, trim s = name := by
  unfold trimmedNames
  rw [List.mem_filter, List.mem_map]
  simp [and_comm]

theorem not_mem_trimmedNames {sep : Char} {s : String} :
    ∀ name ∈ trimmedNames (splitText sep s), sep ∉ name.toList := by
  intro name h hsep
  obtain ⟨piece, hpiece, rfl⟩ := List.mem_map.1 (List.mem_filter.1 h).1
  obtain ⟨cs, hcs, rfl⟩ := List.mem_map.1 hpiece
  refine not_mem_split s.toList cs hcs ?_
  simpa [trim] using mem_of_mem_trimChars (by simpa [trim] using hsep)

/-- No name is lost or changed exactly if each is trimmed and none is empty. -/
theorem trimmedNames_eq_self {names : List String} :
    trimmedNames names = names ↔ ∀ name ∈ names, name ≠ "" ∧ trim name = name := by
  constructor
  · intro h
    have hlength : (trimmedNames names).length = (names.map trim).length := by
      rw [h, List.length_map]
    have hall := List.length_filter_eq_length_iff.1 hlength
    have hmap : names.map trim = names.map id := by
      rw [List.map_id, ← List.filter_eq_self.2 hall]
      exact h
    intro name hname
    have htrim : trim name = name := List.map_inj_left.1 hmap name hname
    have hne := hall (trim name) (List.mem_map_of_mem hname)
    rw [htrim] at hne
    exact ⟨by simpa using hne, htrim⟩
  · intro h
    have hmap : names.map trim = names := by
      rw [List.map_congr_left fun name hname => (h name hname).2]
      exact List.map_id names
    rw [trimmedNames, hmap, List.filter_eq_self]
    intro name hname
    simpa using (h name hname).1

/-- The hosts that are sent make up the host text exactly where the request is tidy. -/
theorem joinTexts_hosts_iff {r : Request} (h : r.fault? = none) :
    joinTexts ',' r.hosts = r.host ↔ r.IsTidy := by
  cases hmulti : r.usingMulti with
  | false => simp [hosts, hmulti, IsTidy, joinTexts, join]
  | true =>
    have hhosts : r.hosts = trimmedNames (splitText ',' r.host) := by simp [hosts, hmulti]
    have htidy : r.IsTidy ↔ r.hosts = splitText ',' r.host := by
      rw [hhosts, trimmedNames_eq_self]
      simp [IsTidy, hmulti]
    rw [htidy]
    constructor
    · intro hjoin
      have hsome : r.hosts ≠ [] := by
        intro hnone
        rw [hnone] at hjoin
        have hhost : r.host = "" := hjoin.symm
        simp [fault?, hhost, allBlank] at h
      have hsplit := splitText_joinTexts hsome (hhosts ▸ not_mem_trimmedNames)
      rw [hjoin] at hsplit
      exact hsplit.symm
    · intro heq
      rw [heq, joinTexts_splitText]

end Request

namespace Url

/-- The values under a name, none if there is no such parameter. -/
def Reading.values (t : Reading) (name : String) : List String :=
  ((t.params.find? (·.1 = name)).map (·.2)).getD []

/-- The text whose signature is checked. -/
def Reading.subject (t : Reading) : String :=
  joinTexts ',' (t.values "host")

/-- The signature that is sent is the one of the text that is checked. -/
structure Reading.Checks (t : Reading) (secret : String) (validityMs now : Nat) : Prop where
  text : t.values "s" = [(Signature.sign t.subject secret validityMs now).text]
  timestamp : t.values "t" = [toString (Signature.sign t.subject secret validityMs now).timestamp]

theorem subject_heard (sender : Sender) (r : Request) (q : QueryType) (now : Nat) :
    (heard sender r q now).subject = joinTexts ',' r.hosts := by
  have hvalues : (heard sender r q now).values "host" = readHosts r := by
    simp [heard, Reading.values]
  rw [Reading.subject, hvalues, readHosts]
  split
  · rename_i hnone
    rw [hnone]
    rfl
  · rfl

theorem values_heard {sender : Sender} {r : Request} {q : QueryType} {now : Nat} {s : Signature}
    (h : signature? sender r now = some s) :
    (heard sender r q now).values "s" = [s.text]
      ∧ (heard sender r q now).values "t" = [toString s.timestamp] := by
  simp [heard, told, h, Reading.values]

theorem isSigned_of_accepted {r : Request} (h : r.fault? = none) (hsign : r.usingSign = true) :
    isSigned r = true := by
  cases hsecret : noSecret r.secretKey with
  | false => simp [isSigned, hsign, hsecret]
  | true =>
    simp only [Request.fault?, hsign, hsecret, Bool.and_self, if_true] at h
    repeat' split at h
    all_goals cases h

theorem message_inj {subject subject' secret : String} {timestamp : Nat}
    (h : Signature.message subject secret timestamp
      = Signature.message subject' secret timestamp) : subject = subject' := by
  have hchars := congrArg String.toList h
  simp only [Signature.message, String.toList_append, List.append_assoc,
    List.append_cancel_right_eq] at hchars
  exact String.toList_inj.1 hchars

/-- What is read from the URL of a signed request that is accepted makes up its host text if and
only if the request is tidy. The signature is then the one a server checks; for a request that is
not tidy the server hashes another text than the one that was signed. -/
theorem signature_checks_iff {r : Request} (h : r.fault? = none) (hsign : r.usingSign = true)
    (platform sdkVersion server : String) (validityMs : Nat) (q : QueryType) (now : Nat) :
    ∃ tail t,
      resolve ⟨Signature.sign, platform, sdkVersion, validityMs⟩ r server q now
          = schemeName r.usingHttps ++ "://" ++ formatServer server ++ "/" ++ String.ofList tail
        ∧ readTail tail = some t
        ∧ t.values "s" = [(Signature.sign r.host (r.secretKey.getD "") validityMs now).text]
        ∧ t.values "t" = [toString (Signature.expiry validityMs now)]
        ∧ (t.subject = r.host ↔ r.IsTidy)
        ∧ (r.IsTidy → t.Checks (r.secretKey.getD "") validityMs now)
        ∧ (¬ r.IsTidy →
          Signature.message t.subject (r.secretKey.getD "") (Signature.expiry validityMs now)
            ≠ Signature.message r.host (r.secretKey.getD "")
              (Signature.expiry validityMs now)) := by
  set sender : Sender := ⟨Signature.sign, platform, sdkVersion, validityMs⟩ with hsender
  have hsigned : signature? sender r now
      = some (Signature.sign r.host (r.secretKey.getD "") validityMs now) :=
    if_pos (isSigned_of_accepted h hsign)
  obtain ⟨htext, htimestamp⟩ := values_heard (q := q) hsigned
  have hsubject : (heard sender r q now).subject = r.host ↔ r.IsTidy := by
    rw [subject_heard, Request.joinTexts_hosts_iff h]
  refine ⟨_, heard sender r q now, rfl, readTail_eq_heard sender r q now, htext, htimestamp,
    hsubject, fun htidy => ?_, fun hnot heq => hnot (hsubject.1 (message_inj heq))⟩
  have hsame := hsubject.2 htidy
  exact ⟨by rw [hsame]; exact htext, by rw [hsame]; exact htimestamp⟩

/-- A batch that is tidy passes the check. -/
theorem signature_checks_batch :
    let r : Request :=
      { host := "a.com,b.com", accountId := "100000", secretKey := some "key", usingSign := true
        usingMulti := true }
    let sender : Sender := ⟨Signature.sign, "linux", "0.3.1", 1800000⟩
    (r.fault? = none ∧ r.usingSign = true ∧ r.IsTidy)
      ∧ ∃ tail t, resolve sender r "203.0.113.7" .a 0
          = "https://203.0.113.7/" ++ String.ofList tail
        ∧ readTail tail = some t ∧ t.subject = "a.com,b.com" ∧ t.Checks "key" 1800000 0 := by
  intro r sender
  have h : r.fault? = none := by decide +kernel
  have htidy : r.IsTidy := by decide +kernel
  obtain ⟨tail, t, hurl, hread, -, -, hsubject, hchecks, -⟩ :=
    signature_checks_iff h rfl "linux" "0.3.1" "203.0.113.7" 1800000 .a 0
  have hserver : schemeName r.usingHttps ++ "://" ++ formatServer "203.0.113.7" ++ "/"
      = "https://203.0.113.7/" := by decide +kernel
  rw [hserver] at hurl
  exact ⟨⟨h, rfl, htidy⟩, tail, t, hurl, hread, hsubject.2 htidy, hchecks htidy⟩

/-- A batch with a blank behind its comma is accepted, and its signature is not the one of the hosts
that are sent. -/
theorem signature_of_blank_fails :
    let r : Request :=
      { host := "a.com, b.com", accountId := "100000", secretKey := some "key", usingSign := true
        usingMulti := true }
    let sender : Sender := ⟨Signature.sign, "linux", "0.3.1", 1800000⟩
    (r.fault? = none ∧ r.usingSign = true)
      ∧ ∃ tail t, resolve sender r "203.0.113.7" .a 0
          = "https://203.0.113.7/" ++ String.ofList tail
        ∧ readTail tail = some t ∧ t.subject = "a.com,b.com" ∧ ¬ t.Checks "key" 1800000 0 := by
  intro r sender
  have hserver : schemeName r.usingHttps ++ "://" ++ formatServer "203.0.113.7" ++ "/"
      = "https://203.0.113.7/" := by decide +kernel
  have hsubject : (heard sender r .a 0).subject = "a.com,b.com" := by
    rw [subject_heard]
    decide +kernel
  refine ⟨⟨by decide +kernel, rfl⟩, _, heard sender r .a 0,
    congrArg (· ++ String.ofList (resolveTail sender r .a 0).write) hserver,
    readTail_eq_heard sender r .a 0, hsubject, fun hchecks => ?_⟩
  have hsigned : signature? sender r 0 = some (Signature.sign "a.com, b.com" "key" 1800000 0) := rfl
  have htext := hchecks.text
  rw [(values_heard hsigned).1, hsubject] at htext
  revert htext
  decide +kernel

end Url

end HttpDns
