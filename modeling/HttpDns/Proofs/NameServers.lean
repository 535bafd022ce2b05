import HttpDns.Proofs.Rendering
import HttpDns.Proofs.Settling
import HttpDns.Proofs.Zones

/-!
# Name servers

A name server reads the URL of an exchange and writes the documented body with what its zone has:
one answer, or one for each host that is named. A client that reads these bodies is served by the
zone, whatever its configuration (`Zone.serves_server`).
-/

namespace HttpDns

/-! ## Reading a URL -/

/-- What follows the server in the URL. -/
def Exchange.urlTail (e : Exchange) : List Char :=
  (e.url.toList.dropWhile (· ≠ ':')).drop ("://" ++ Url.formatServer e.server ++ "/").length

theorem urlTail_resolve (sender : Url.Sender) (r : Request) (server : String) (type : QueryType)
    (now : Nat) (timeoutMs : UInt64) :
    Exchange.urlTail ⟨Url.resolve sender r server type now, server, timeoutMs⟩
      = (Url.resolveTail sender r type now).write := by
  have hscheme : ∀ c ∈ (schemeName r.usingHttps).toList, decide (c ≠ ':') = true := by
    cases r.usingHttps <;> simp [schemeName]
  have hurl : (Url.resolve sender r server type now).toList = (schemeName r.usingHttps).toList
      ++ (("://" ++ Url.formatServer server ++ "/").toList
        ++ (Url.resolveTail sender r type now).write) := by
    simp [Url.resolve, Url.assemble]
  have hcolon : ∃ rest, ("://" ++ Url.formatServer server ++ "/").toList = ':' :: rest :=
    ⟨_, by simp only [String.toList_append]; rfl⟩
  obtain ⟨rest, hrest⟩ := hcolon
  unfold Exchange.urlTail
  rw [hurl, List.dropWhile_append_of_pos hscheme, ← String.length_toList, hrest]
  simp

namespace Url.Reading

/-- The type that is asked for. -/
def type (t : Reading) : QueryType :=
  if t.values "query" = [QueryType.a.wireToken] then .a
  else if t.values "query" = [QueryType.aaaa.wireToken] then .aaaa
  else .both

/-- The hosts that are asked for. -/
def hosts (t : Reading) : List String :=
  (t.values "host").filter (· ≠ "")

/-- Several hosts are asked for. -/
def batched (t : Reading) : Bool :=
  t.operation = "resolve" || t.operation = "sign_resolve"

end Url.Reading

/-! ## Answering -/

namespace Zone

/-- The zone holds no empty address, and no IPv6 address twice for one host. -/
def Plain (Z : Zone) : Prop :=
  ∀ host, "" ∉ Z.ipv4 host ∧ "" ∉ Z.ipv6 host ∧ (Z.ipv6 host).Nodup

def answer (Z : Zone) (type : QueryType) (host : String) : Answer where
  host
  ips := if type.wantsIpv4 then Z.ipv4 host else []
  ipsv6 := if type.wantsIpv6 then Z.ipv6 host else []
  ttl := Z.ttl host
  originTtl := Z.originTtl host

/-- The body for what is read from a URL. -/
def bodyFor (Z : Zone) (t : Url.Reading) : String :=
  if t.batched then String.ofList (Reply.multiValue (t.hosts.map (Z.answer t.type))).write
  else String.ofList (Reply.singleValue (Z.answer t.type (t.hosts.headD ""))).write

def reply (Z : Zone) (e : Exchange) : Reply :=
  .ok ⟨statusOk, ((Url.readTail e.urlTail).map Z.bodyFor).getD "", 8⟩

/-- The services on a stack with a name server of the zone behind every address. -/
def server (Z : Zone) (stack : Stack) : Services Unit :=
  { (Services.steady (fun _ => none) Z.reply fun _ => none).withJson with
    stack := fun w => (stack, w) }

variable {Z : Zone} {type : QueryType}

theorem readSingle_server (stack : Stack) (body : String) (w : Unit) :
    ((Z.server stack).readSingle body w).1 = Reply.readSingle body := rfl

theorem readMulti_server (stack : Stack) (body : String) (w : Unit) :
    ((Z.server stack).readMulti body w).1 = Reply.readMulti body := rfl

theorem answer_answers (type : QueryType) (host : String) :
    Z.Answers host type (Z.answer type host) :=
  ⟨⟨.inl rfl, rfl, rfl⟩, rfl, rfl⟩

theorem Plain.answerPlain (h : Z.Plain) (type : QueryType) (host : String) :
    Reply.AnswerPlain (Z.answer type host) := by
  obtain ⟨hipv4, hipv6, -⟩ := h host
  refine ⟨?_, ?_, nofun, nofun⟩ <;> unfold answer <;> dsimp only <;> split
  · exact hipv4
  · exact List.not_mem_nil
  · exact hipv6
  · exact List.not_mem_nil

theorem Plain.listed (h : Z.Plain) (type : QueryType) {host : String} (hne : host ≠ "") :
    Reply.Listed (Z.answer type host) := by
  refine ⟨h.answerPlain type host, hne, rfl, ?_⟩
  unfold answer
  dsimp only
  split
  · exact (h host).2.2
  · exact List.nodup_nil

theorem lists_answers (type : QueryType) (names : List String) :
    Z.Lists names type (names.map (Z.answer type)) where
  named a ha := by
    obtain ⟨host, hhost, rfl⟩ := List.mem_map.1 ha
    exact ⟨hhost, answer_answers type host⟩
  complete host hhost := ⟨_, List.mem_map_of_mem hhost, rfl⟩

/-- An answer is the same for types that ask for the same families. -/
theorem answer_congr {type type' : QueryType} (h4 : type.wantsIpv4 = type'.wantsIpv4)
    (h6 : type.wantsIpv6 = type'.wantsIpv6) : Z.answer type = Z.answer type' := by
  funext host
  rw [answer, answer, h4, h6]

end Zone

/-! ## What a client asks -/

namespace Zone

open Client

variable {Z : Zone} {c : Client}

theorem type_heard (sender : Url.Sender) (r : Request) (type : QueryType) (now : Nat) :
    (Url.heard sender r type now).type.wantsIpv4 = type.wantsIpv4
      ∧ (Url.heard sender r type now).type.wantsIpv6 = type.wantsIpv6 := by
  have hvalues : (Url.heard sender r type now).values "query" = [type.wireToken] := by
    simp [Url.heard, Url.told, Url.Reading.values]
  unfold Url.Reading.type
  rw [hvalues]
  cases type <;> decide

theorem hosts_heard (sender : Url.Sender) (r : Request) (type : QueryType) (now : Nat) :
    (Url.heard sender r type now).hosts = r.hosts.filter (· ≠ "") := by
  have hvalues : (Url.heard sender r type now).values "host" = Url.readHosts r := by
    simp [Url.heard, Url.Reading.values]
  rw [Url.Reading.hosts, hvalues, Url.readHosts]
  split
  · rename_i hnone
    rw [hnone]
    decide
  · rfl

theorem batched_heard {r : Request} (hsdns : r.sdns = []) (sender : Url.Sender) (type : QueryType)
    (now : Nat) : (Url.heard sender r type now).batched = r.usingMulti := by
  have hoperation : (Url.heard sender r type now).operation = Url.operation r := rfl
  rw [Url.Reading.batched, hoperation, Url.operation, hsdns]
  cases r.usingMulti <;> cases Url.isSigned r <;> decide

theorem reply_sends (Z : Zone) (signer : Signer) (ask : Request) (type : QueryType)
    (server : String) (now : Nat) : Z.reply (c.sends signer ask type server now).exchange
      = .ok ⟨statusOk, Z.bodyFor (Url.heard (c.job.settings.sender signer)
          (c.sends signer ask type server now).request type now), 8⟩ := by
  have htail : (c.sends signer ask type server now).exchange.urlTail
      = (Url.resolveTail (c.job.settings.sender signer)
          (c.sends signer ask type server now).request type now).write := urlTail_resolve ..
  rw [reply, htail, Url.readTail_eq_heard]
  rfl

/-- A name server of the zone tells what the zone has. -/
theorem tells_server (h : Z.Plain) {stack : Stack} {ask : Request} (hask : c.Poses ask)
    (type : QueryType) (server : String) (now : Nat) :
    Z.Tells (Z.server stack) (c.sends (Z.server stack).signer ask type server now)
      (Z.reply (c.sends (Z.server stack).signer ask type server now).exchange) := by
  rw [reply_sends]
  set sender := c.job.settings.sender (Z.server stack).signer
  set r := (c.sends (Z.server stack).signer ask type server now).request with hr
  have htype : r.queryType = type := rfl
  obtain ⟨h4, h6⟩ := type_heard sender r type now
  have hbatched := batched_heard (r := r) hask.sdns_eq sender type now
  rw [bodyFor, answer_congr h4 h6, hbatched, hosts_heard]
  cases hmulti : r.usingMulti with
  | false =>
    have hhost : (r.hosts.filter (· ≠ "")).headD "" = r.host := by
      rw [Request.hosts, hmulti]
      by_cases hempty : r.host = "" <;> simp [hempty]
    rw [hhost]
    refine .single hmulti (fun w => ?_) (answer_answers type r.host)
    rw [readSingle_server]
    exact Reply.readSingle_of_renders (h.answerPlain type r.host) (Reply.renders_single _)
  | true =>
    have hhosts : ∀ host ∈ r.hosts, host ≠ "" := by
      rw [Request.hosts, hmulti]
      exact fun host hhost => (Request.mem_trimmedNames.1 hhost).1
    have hnamed : r.hosts.filter (· ≠ "") = r.hosts :=
      List.filter_eq_self.2 fun host hhost => decide_eq_true (hhosts host hhost)
    rw [hnamed]
    have hlisted : ∀ a ∈ r.hosts.map (Z.answer type), Reply.Listed a := by
      intro a ha
      obtain ⟨host, hhost, rfl⟩ := List.mem_map.1 ha
      exact h.listed type (hhosts host hhost)
    refine .batched hmulti (fun w => ?_) (lists_answers type r.hosts)
    rw [readMulti_server]
    exact Reply.readMulti_of_renders hlisted (Reply.renders_multi _)

/-- A client is served by the name servers of a zone. -/
theorem serves_server (h : Z.Plain) (stack : Stack) (c : Client) :
    Z.Serves (Z.server stack) c := by
  intro outs houts w
  induction outs generalizing w with
  | nil => exact .nil
  | cons out outs ih =>
    obtain ⟨hfirst, hrest⟩ := List.forall_mem_cons.1 houts
    obtain ⟨ask, type, server, now, hask, rfl⟩ := hfirst
    exact .cons (tells_server h hask type server now) (ih hrest w)

end Zone

end HttpDns
