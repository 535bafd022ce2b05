import HttpDns.Client
import HttpDns.Proofs.Mirroring
import HttpDns.Proofs.Settling

/-!
# Failing replies

A reply fails a request in many ways: none comes, it comes too late, its status is not the right
one, its body cannot be read or holds no address. What a run makes of it is one and the same
(`Readers.got_eq_none_iff`). So two runs of a job that hear the same, but for failures of one kind
in the place of another, come to the same (`failures_alike`).
-/

namespace HttpDns

variable {σ σ' τ τ' : Type}

/-- Readers of reply bodies that read a body alike at every call. -/
structure Readers where
  single : String → Option Answer
  multi : String → List Answer

/-- The services read bodies with the readers. -/
structure Services.ReadsWith (S : Services σ) (R : Readers) : Prop where
  single : ∀ body w, S.readSingle body w = (R.single body, w)
  multi : ∀ body w, S.readMulti body w = (R.multi body, w)

namespace Readers

/-- The readers of JSON bodies. -/
def json : Readers where
  single := Reply.readSingle
  multi := Reply.readMulti

variable (R : Readers) (r : Request)

/-- The answers a body holds for a request, those without an address among them. -/
def answers (body : String) : List Answer :=
  if r.usingMulti then R.multi body
  else ((R.single body).map fun a => if a.host = "" then { a with host := r.host } else a).toList

/-- A reply from which a request gets nothing. -/
inductive Fails : Reply → Prop
  /-- the exchange failed or took too long -/
  | unheard (fault : ExchangeFault) : Fails (.error fault)
  | refused {response : Response} (h : response.status ≠ statusOk) : Fails (.ok response)
  /-- the body cannot be read -/
  | unread {response : Response} (h : R.answers r response.body = []) : Fails (.ok response)
  /-- no answer in the body has an address -/
  | barren {response : Response} (h : ∀ a ∈ R.answers r response.body, a.isEmpty = true) :
      Fails (.ok response)

/-- What a request gets from a reply. -/
def got : Reply → Option (List Answer × UInt32)
  | .error _ => none
  | .ok response =>
    if response.isOk then
      match (R.answers r response.body).filter (!·.isEmpty) with
      | [] => none
      | answers => some (answers, response.rtt)
    else none

variable {R r}

/-- The failing replies are those from which a run takes nothing. -/
theorem got_eq_none_iff {reply : Reply} : R.got r reply = none ↔ R.Fails r reply := by
  constructor
  · intro h
    match reply with
    | .error fault => exact .unheard fault
    | .ok response =>
      by_cases hok : response.status = statusOk
      · refine .barren fun a ha => ?_
        cases hf : (R.answers r response.body).filter (!·.isEmpty) with
        | nil => simpa using List.filter_eq_nil_iff.1 hf a ha
        | cons => simp [got, Response.isOk, hok, hf] at h
      · exact .refused hok
  · intro h
    cases h with
    | unheard => rfl
    | refused h => simp [got, Response.isOk, h]
    | unread h => simp [got, h]
    | @barren response h =>
      have hnil : (R.answers r response.body).filter (!·.isEmpty) = [] :=
        List.filter_eq_nil_iff.2 fun a ha => by simp [h a ha]
      simp [got, hnil]

variable (R r)

/-- The replies are equal, or both fail the request. -/
inductive Alike : Reply → Reply → Prop
  | same (reply : Reply) : Alike reply reply
  | failed {reply reply' : Reply} (h : R.Fails r reply) (h' : R.Fails r reply') :
      Alike reply reply'

variable {R r}

theorem Alike.got_eq {reply reply' : Reply} (h : R.Alike r reply reply') :
    R.got r reply = R.got r reply' := by
  cases h with
  | same => rfl
  | failed h h' => rw [got_eq_none_iff.2 h, got_eq_none_iff.2 h']

variable (R)

/-- Replies to what went out that are alike one by one. -/
inductive AllAlike : List Job.Outgoing → List Reply → List Reply → Prop
  | nil : AllAlike [] [] []
  | cons {out : Job.Outgoing} {outs : List Job.Outgoing} {reply reply' : Reply}
      {replies replies' : List Reply} (first : R.Alike out.request reply reply')
      (rest : AllAlike outs replies replies') :
      AllAlike (out :: outs) (reply :: replies) (reply' :: replies')

end Readers

namespace Job

variable {S : Services σ} {S' : Services σ'} {R : Readers} {rel : σ → σ' → Prop}

/-! ## A reply -/

theorem readBody_eq (hS : S.ReadsWith R) (r : Request) (body : String) :
    readBody S r body = pure (R.answers r body) := by
  unfold readBody Readers.answers
  split
  · funext w
    simp [hS.multi]
  · funext w
    cases h : R.single body <;> simp [hS.single, h]

theorem usable_eq (hS : S.ReadsWith R) (r : Request) (reply : Reply) :
    usable S r reply = pure (R.got r reply) := by
  cases reply with
  | error => rfl
  | ok response =>
    unfold usable Readers.got
    dsimp only
    split
    · rw [readBody_eq hS]
      funext w
      cases h : (R.answers r response.body).filter (!·.isEmpty) <;> simp [h]
    · rfl

/-- Replies from which the request gets the same land alike: the penalty for a failure is the
request's own. -/
theorem land_mirrors (h : S.Agrees S' rel) (hS : S.ReadsWith R) (hS' : S'.ReadsWith R) (i : Nat)
    (q : Query) (out : Outgoing) {reply reply' : Reply}
    (hgot : R.got out.request reply = R.got out.request reply') :
    Mirrors rel (land S i q out reply) (land S' i q out reply') := by
  unfold land
  rw [usable_eq hS, usable_eq hS', ← hgot]
  refine .bind (.pure _) fun got => ?_
  cases got with
  | none => exact .bind (report_mirrors h _ _ _) fun _ => .pure _
  | some answers => exact .bind (report_mirrors h _ _ _) fun _ => .pure _

theorem landAll_mirrors (h : S.Agrees S' rel) (hS : S.ReadsWith R) (hS' : S'.ReadsWith R) :
    ∀ (seats : List Seat) {replies replies' : List Reply},
      R.AllAlike (seats.filterMap (·.out)) replies replies' →
        Mirrors rel (landAll S seats replies) (landAll S' seats replies')
  | [], _, _, _ => .pure _
  | seat :: seats, replies, replies', halike => by
    cases ho : seat.out with
    | none =>
      rw [List.filterMap_cons_none ho] at halike
      simp only [landAll, ho]
      exact .bind (landAll_mirrors h hS hS' seats halike) fun _ => .pure _
    | some out =>
      rw [List.filterMap_cons_some ho] at halike
      cases halike with
      | cons first rest =>
        simp only [landAll, ho]
        exact .bind (land_mirrors h hS hS' _ _ _ first.got_eq) fun _ =>
          .bind (landAll_mirrors h hS hS' seats rest) fun _ => .pure _

theorem receive_mirrors (h : S.Agrees S' rel) (hS : S.ReadsWith R) (hS' : S'.ReadsWith R)
    {seats : List Seat} {replies replies' : List Reply}
    (halike : R.AllAlike (seats.filterMap (·.out)) replies replies') :
    Mirrors rel (receive S seats replies) (receive S' seats replies') :=
  .bind (.read h.instant) fun _ => .bind (landAll_mirrors h hS hS' seats halike) fun _ =>
    deliverAll_mirrors h _ _

/-! ## A round -/

/-- The same round on two sides. -/
structure Round.Level (rel : σ → σ' → Prop) (r : Round σ) (r' : Round σ') : Prop where
  number_eq : r.number = r'.number
  queries_eq : r.queries = r'.queries
  world : rel r.world r'.world

namespace Round.Level

variable {r : Round σ} {r' : Round σ'} (settings : JobSettings)

theorem launched (h : S.Agrees S' rel) (hr : r.Level rel r') :
    Same rel (r.launched S settings) (r'.launched S' settings) := by
  have hlaunch := launch_mirrors h settings r.number r.queries _ _ hr.world
  rw [Round.launched, Round.launched, ← hr.number_eq, ← hr.queries_eq]
  exact hlaunch

theorem seats_eq (h : S.Agrees S' rel) (hr : r.Level rel r') :
    r.seats S settings = r'.seats S' settings :=
  (hr.launched settings h).value

theorem exchanged_world (h : S.Agrees S' rel) (hr : r.Level rel r') :
    rel (r.exchanged S settings).2.2 (r'.exchanged S' settings).2.2 := by
  have hlaunched := hr.launched settings h
  have hsent := h.sendAll (batchOf (r.seats S settings)) hlaunched.state
  rw [Round.exchanged, Round.exchanged, ← hr.seats_eq settings h]
  exact hsent

/-- Alike replies lead to the same round again, with the same events. -/
theorem received (h : S.Agrees S' rel) (hS : S.ReadsWith R) (hS' : S'.ReadsWith R)
    (hr : r.Level rel r')
    (halike : R.AllAlike ((r.seats S settings).filterMap (·.out)) (r.replies S settings)
      (r'.replies S' settings)) :
    r.events S settings = r'.events S' settings
      ∧ (r.next S settings).Level rel (r'.next S' settings) := by
  have hlaunched := hr.launched settings h
  have hreceived : Same rel (r.received S settings) (r'.received S' settings) := by
    have hmirrors := receive_mirrors h hS hS' halike
    rw [Round.received, Round.received, ← hr.seats_eq settings h]
    exact hmirrors _ _ (hr.exchanged_world settings h)
  have hexchanged : (r.exchanged S settings).2.1 = (r'.exchanged S' settings).2.1 := by
    rw [r.exchanged_events, r'.exchanged_events, hr.number_eq, hr.seats_eq settings h]
  refine ⟨?_, congrArg (· + 1) hr.number_eq, hreceived.value, hreceived.state⟩
  rw [Round.events, Round.events, hlaunched.events, hexchanged, hreceived.events]

end Round.Level

/-! ## A run -/

/-- Wherever two stretches of rounds send the same batch in the same round, the replies to it are
alike. -/
def RepliesAlike (R : Readers) (S : Services σ) (S' : Services σ') (settings : JobSettings)
    (reached : Round σ → Prop) (reached' : Round σ' → Prop) : Prop :=
  ∀ r r', reached r → reached' r' → r.number = r'.number →
    manifest (r.seats S settings) = manifest (r'.seats S' settings) →
      R.AllAlike ((r.seats S settings).filterMap (·.out)) (r.replies S settings)
        (r'.replies S' settings)

/-- Two stretches of rounds that hear alike replies end alike. -/
theorem Settles.mirrored {settings : JobSettings} (h : S.Agrees S' rel) (hS : S.ReadsWith R)
    (hS' : S'.ReadsWith R) {r : Round σ} {qs : List Query} {es : List Event} {w : σ}
    (hs : Settles S settings r qs es w) {r' : Round σ'} (hr : r.Level rel r')
    (halike : RepliesAlike R S S' settings
      (fun t => Reaches S settings r t ∧ t.isSent S settings)
      (fun t => Reaches S' settings r' t ∧ t.isSent S' settings)) :
    ∃ w', Settles S' settings r' qs es w' ∧ rel w w' := by
  -- the two sides go in step: in each round they have the same seats, so both send or both end
  induction hs generalizing r' with
  | @ended r hend =>
    have hlaunched := hr.launched settings h
    have hend' : ¬ r'.isSent S' settings := by
      rw [Round.isSent, ← hr.seats_eq settings h]
      exact hend
    have hsettles := Settles.ended hend'
    rw [← hr.seats_eq settings h, ← hlaunched.events] at hsettles
    exact ⟨_, hsettles, hlaunched.state⟩
  | @again r qs es w hsent _ ih =>
    have hsent' : r'.isSent S' settings := by
      rw [Round.isSent, ← hr.seats_eq settings h]
      exact hsent
    have hsame : manifest (r.seats S settings) = manifest (r'.seats S' settings) := by
      rw [hr.seats_eq settings h]
    obtain ⟨hevents, hnext⟩ := hr.received settings h hS hS'
      (halike r r' ⟨.refl r, hsent⟩ ⟨.refl r', hsent'⟩ hr.number_eq hsame)
    obtain ⟨w', hrest, hw⟩ := ih hnext
      fun t t' ht ht' => halike t t' ⟨.step hsent ht.1, ht.2⟩ ⟨.step hsent' ht'.1, ht'.2⟩
    rw [hevents]
    exact ⟨w', .again hsent' hrest, hw⟩

/-- Which failures a run hears makes no difference. Two runs of a job over services that agree, and
hear the same but for failing replies in the place of other failing replies, come to the same: in
the job and its outcome, in every event, be it an exchange, a sample, a stored answer or a callback,
and in the states of the services. -/
theorem failures_alike (h : S.Agrees S' rel) (hS : S.ReadsWith R) (hS' : S'.ReadsWith R) {j : Job}
    {w : σ} {w' : σ'} (hw : rel w w')
    (hreplies : RepliesAlike R S S' j.settings (InRun S j w) (InRun S' j w')) :
    Same rel (run S j w) (run S' j w') := by
  obtain ⟨hvalue, hevents, hstate⟩ := prepare_mirrors h 0 none j.queries w w' hw
  have hrun := executes_run S j w
  generalize run S j w = out at hrun ⊢
  cases hrun with
  | refused hready =>
    rw [← Executes.eq_run S' (.refused (hvalue ▸ hready)), ← hvalue, ← hevents]
    exact ⟨rfl, rfl, hstate⟩
  | settled hready hs =>
    have hready' : (prepare S' 0 none j.queries w').1.2 = true := hvalue ▸ hready
    have hfirst : (firstRound S j w).Level rel (firstRound S' j w') :=
      ⟨rfl, congrArg (·.1) hvalue, hstate⟩
    obtain ⟨v', hs', hv⟩ := hs.mirrored h hS hS' hfirst
      fun r r' hr hr' => hreplies r r' ⟨hready, hr.1, hr.2⟩ ⟨hready', hr'.1, hr'.2⟩
    rw [← Executes.eq_run S' (.settled hready' hs'), ← hevents]
    exact ⟨rfl, rfl, hv⟩

/-! ## Transports that differ by failures -/

theorem allAlike_map {answer answer' : Exchange → Reply} : ∀ {outs : List Outgoing},
    (∀ out ∈ outs, R.Alike out.request (answer out.exchange) (answer' out.exchange)) →
      R.AllAlike outs ((outs.map (·.exchange)).map answer) ((outs.map (·.exchange)).map answer')
  | [], _ => .nil
  | out :: _, h => .cons (h out List.mem_cons_self)
      (allAlike_map fun out' hout' => h out' (List.mem_cons_of_mem _ hout'))

/-- Transports with a fixed reply to every exchange, alike whatever it is sent for. -/
theorem repliesAlike_of_fixed {answer answer' : Exchange → Reply}
    (hanswer : ∀ batch w, (S.sendAll batch w).1.1 = batch.map answer)
    (hanswer' : ∀ batch w, (S'.sendAll batch w).1.1 = batch.map answer')
    (halike : ∀ request e, R.Alike request (answer e) (answer' e)) (settings : JobSettings)
    (reached : Round σ → Prop) (reached' : Round σ' → Prop) :
    RepliesAlike R S S' settings reached reached' := by
  intro r r' _ _ _ hmanifest
  have hreplies : r.replies S settings = (batchOf (r.seats S settings)).map answer :=
    hanswer _ _
  have hreplies' : r'.replies S' settings = (batchOf (r'.seats S' settings)).map answer' :=
    hanswer' _ _
  have hbatch : batchOf (r'.seats S' settings) = batchOf (r.seats S settings) := by
    rw [batchOf, batchOf, hmanifest]
  rw [hreplies, hreplies', hbatch, batchOf_eq]
  exact allAlike_map fun out _ => halike out.request out.exchange

end Job

theorem sendEach_fixed (answer : Exchange → Reply) (w : τ) : ∀ batch : List Exchange,
    (sendEach (fun e w => (answer e, w)) batch w).1.1 = batch.map answer
  | [] => rfl
  | e :: rest => congrArg (answer e :: ·) (sendEach_fixed answer w rest)

theorem Services.steady_agrees (found : String → Option Resolution)
    (answer answer' : Exchange → Reply) (read : String → Option Answer) :
    (steady found answer read).Agrees (steady found answer' read) Eq := by
  constructor <;> simp [steady]

/-- The body of an empty record holds no address, whichever request it is for. -/
theorem Readers.fails_empty_record (r : Request) (rtt : UInt32) :
    json.Fails r (.ok ⟨statusOk, "\x7b\x7d", rtt⟩) := by
  have hsingle : Reply.readSingle "\x7b\x7d" = some ⟨"", [], [], 0, 0, none, none⟩ := by
    decide +kernel
  have hmulti : Reply.readMulti "\x7b\x7d" = [] := by decide +kernel
  refine .barren ?_
  simp only [answers, json, hsingle, hmulti]
  split
  · simp
  · simp [Answer.isEmpty]

namespace Client

variable {S : Services τ} {S' : Services τ'} {rel : τ → τ' → Prop} {R : Readers}

/-- Services that agree still do so for a client, over an equal cache, pool and boot servers. -/
theorem agrees_services (h : S.Agrees S' rel) : (services S).Agrees (services S')
    (Services.Alongside Cache (Services.Alongside Pool (Services.Alongside Roster rel))) :=
  h.beside.withPool.withCache

theorem readsWith_services (h : S.ReadsWith R) : (services S).ReadsWith R := by
  constructor
  · rintro body ⟨cache, pool, boot, w⟩
    simp [services, Services.withCache, Services.withPool, Services.beside, h.single]
  · rintro body ⟨cache, pool, boot, w⟩
    simp [services, Services.withCache, Services.withPool, Services.beside, h.multi]

/-- The servers of these lookups reply with an answer, but for the first one: it stays silent in
one run, in the other it replies late and with no address. -/
theorem failures_alike_two_servers :
    let answered (first : Reply) (e : Exchange) : Reply :=
      if e.server = "203.0.113.1" then first
      else .ok ⟨statusOk, "\x7b\"host\":\"a.com\",\"ips\":[\"192.0.2.1\"],\"ttl\":60\x7d", 30⟩
    let S (first : Reply) : Services (State Unit) :=
      services (Services.steady (fun _ => none) (answered first) fun _ => none).withJson
    let silent := S (.error (.timeout 2500))
    let barren := S (.ok ⟨statusOk, "\x7b\x7d", 9000⟩)
    let query : Query := .ofRequest { host := "a.com", accountId := "1", queryType := .a } true 2
    let j : Job := ⟨⟨1, "", "", 0⟩, [query]⟩
    let s : State Unit := ({}, { ipv4 := [⟨"203.0.113.1", none⟩, ⟨"203.0.113.2", none⟩] }, {}, ())
    let rel : State Unit → State Unit → Prop :=
      Services.Alongside Cache (Services.Alongside Pool (Services.Alongside Roster Eq))
    (silent.Agrees barren rel ∧ silent.ReadsWith .json ∧ barren.ReadsWith .json ∧ rel s s
        ∧ Job.RepliesAlike .json silent barren j.settings (Job.InRun silent j s)
          (Job.InRun barren j s))
      ∧ Same rel (Job.run silent j s) (Job.run barren j s)
      ∧ (Job.run barren j s).1.1.queries.map (·.state) = [.completed]
      ∧ .sampled 0 "203.0.113.1" 2500 ∈ (Job.run barren j s).2.1 := by
  intro answered S silent barren query j s rel
  have hagrees : silent.Agrees barren rel :=
    agrees_services (Services.steady_agrees _ _ _ _).withJson
  have hreads : ∀ first, (S first).ReadsWith .json := fun first =>
    readsWith_services ⟨fun _ _ => rfl, fun _ _ => rfl⟩
  have hfixed : ∀ first batch s, ((S first).sendAll batch s).1.1 = batch.map (answered first) := by
    rintro first batch ⟨cache, pool, boot, w⟩
    exact sendEach_fixed (answered first) w batch
  have halike : ∀ r e, Readers.json.Alike r (answered (.error (.timeout 2500)) e)
      (answered (.ok ⟨statusOk, "\x7b\x7d", 9000⟩) e) := by
    intro r e
    by_cases he : e.server = "203.0.113.1"
    · simp only [answered, he, if_true]
      exact .failed (.unheard _) (Readers.fails_empty_record r 9000)
    · simp only [answered, he, if_false]
      exact .same _
  have hreplies := Job.repliesAlike_of_fixed (hfixed _) (hfixed _) halike j.settings
    (Job.InRun silent j s) (Job.InRun barren j s)
  have hs : rel s s := ⟨rfl, rfl, rfl, rfl⟩
  exact ⟨⟨hagrees, hreads _, hreads _, hs, hreplies⟩,
    Job.failures_alike hagrees (hreads _) (hreads _) hs hreplies, by decide +kernel,
    by decide +kernel⟩

end Client

end HttpDns
