import HttpDns.Proofs.Documents

/-!
# Reading undoes rendering

A roster, an answer and a list of answers are rendered as the documented body if its text is one of
an object with the documented members; how the values are written is one such text. All renderings
of one that holds no empty address are read as that one again (`reading_undoes_rendering`).
-/

namespace HttpDns.Reply

open Json

theorem texts_of_lists {as : List String} {t : Tree} (h : Lists Says as t) {depth : Nat}
    (hd : 0 < depth) : texts depth t = some as := by
  obtain ⟨bs, hbs, hall⟩ := listOf?_of_lists h (R := (· = ·))
    (fun a _ t ht => ⟨a, text?_of_says ht, rfl⟩) hd
  rw [List.forall₂_eq_eq_eq] at hall
  rw [texts, hbs, ← hall]

/-! ## The documented bodies -/

def scheduleDocument (r : Roster) : Document :=
  [("service_ip", Stated (Lists Says r.ipv4) (r.ipv4 = [])),
    ("service_ipv6", Stated (Lists Says r.ipv6) (r.ipv6 = []))]

def singleDocument (a : Answer) : Document :=
  [("host", Stated (Says a.host) (a.host = "")), ("ips", Stated (Lists Says a.ips) (a.ips = [])),
    ("ipsv6", Stated (Lists Says a.ipsv6) (a.ipsv6 = [])),
    ("ttl", Stated (Counts a.ttl.toNat) (a.ttl = 0)),
    ("origin_ttl", Stated (Counts a.originTtl.toNat) (a.originTtl = 0)),
    ("client_ip", Stated (SaysOrNull a.clientIp) (a.clientIp = none)),
    ("extra", Stated (SaysOrNull a.extra) (a.extra = none))]

/-- An entry of the record type, with what is listed in either family. -/
def entryDocument (a : Answer) (recordType : UInt16) (ips ipsv6 : List String) : Document :=
  [("host", Stated (Says a.host) (a.host = "")), ("ips", Stated (Lists Says ips) (ips = [])),
    ("ipsv6", Stated (Lists Says ipsv6) (ipsv6 = [])),
    ("type", Stated (Counts recordType.toNat) (recordType = 1)),
    ("ttl", Stated (Counts a.ttl.toNat) (a.ttl = 0)),
    ("origin_ttl", Stated (Counts a.originTtl.toNat) (a.originTtl = 0)),
    ("client_ip", Stated (SaysOrNull a.clientIp) (a.clientIp = none))]

/-- An entry of an answer: of type 1, or of type 28 where the answer has only IPv6 addresses, which
may then stand in either list. -/
inductive IsEntry (a : Answer) (t : Tree) : Prop
  | ipv4 (h : (entryDocument a 1 a.ips a.ipsv6).Of t) : IsEntry a t
  | ipv6 {front back : List String} (h : (entryDocument a typeAaaa front back).Of t)
      (hips : a.ips = []) (hipsv6 : a.ipsv6 = front ++ back) : IsEntry a t

def multiDocument (as : List Answer) : Document :=
  [("dns", Stated (Lists IsEntry as) (as = []))]

/-- The body is a text of the document. -/
def Renders (doc : Document) (body : String) : Prop :=
  ∃ t, doc.Of t ∧ t.Written body.toList

/-- The roster holds no empty address. -/
def RosterPlain (r : Roster) : Prop :=
  "" ∉ r.ipv4 ∧ "" ∉ r.ipv6

/-- The answer holds no empty address, and no empty text where one may be missing. -/
def AnswerPlain (a : Answer) : Prop :=
  "" ∉ a.ips ∧ "" ∉ a.ipsv6 ∧ a.clientIp ≠ some "" ∧ a.extra ≠ some ""

/-- An answer as an entry can say it. -/
def Listed (a : Answer) : Prop :=
  AnswerPlain a ∧ a.host ≠ "" ∧ a.extra = none ∧ a.ipsv6.Nodup

theorem nonEmpty_eq_self {l : List String} (h : "" ∉ l) : nonEmpty l = l := by
  refine List.filter_eq_self.2 fun s hs => ?_
  have hne : s ≠ "" := fun h' => h (h' ▸ hs)
  simpa using hne

theorem nonEmptyText_eq_self {s : Option String} (h : s ≠ some "") : nonEmptyText s = s := by
  cases s with
  | none => rfl
  | some s =>
    have hne : s ≠ "" := fun h' => h (h' ▸ rfl)
    simp [nonEmptyText, hne]

theorem appendNew_eq {l l' : List String} (h : (l ++ l').Nodup) : appendNew l l' = l ++ l' := by
  induction l' generalizing l with
  | nil => rw [appendNew, List.append_nil]
  | cons s l' ih =>
    have hnew : s ∉ l := fun hs => (List.nodup_append.1 h).2.2 s hs s List.mem_cons_self rfl
    rw [List.append_cons] at h
    rw [appendNew, if_neg hnew, ih h, ← List.append_cons]

/-! ## Reading the documented bodies -/

theorem texts_read {depth : Nat} (hd : 0 < depth) {l : List String} (t : Tree)
    (ht : Lists Says l t) : texts depth t = some l :=
  texts_of_lists ht hd

theorem schedule?_of_document {r : Roster} (hr : RosterPlain r) {t : Tree}
    (h : (scheduleDocument r).Of t) : schedule? t = some r := by
  have htexts {l : List String} := texts_read (by decide : 0 < maxDepth - 1) (l := l)
  obtain ⟨fs, hfs, hstated⟩ := h.fields (show scheduleFields.Nodup by decide)
    (by decide : 0 < maxDepth)
  simp only [scheduleDocument, List.forall_mem_cons] at hstated
  obtain ⟨hipv4, hipv6, -⟩ := hstated
  have hfields : t.fields scheduleFields maxDepth = some fs := hfs
  simp only [schedule?, hfields, get_of_stated hipv4 htexts id, get_of_stated hipv6 htexts id,
    Option.bind_eq_bind, Option.bind_some, nonEmpty_eq_self hr.1, nonEmpty_eq_self hr.2]
  rfl

theorem bind_extraText {s : Option String} (h : s ≠ some "") :
    (s.map Value.text).bind extraText = s := by
  cases s with
  | none => rfl
  | some s => exact nonEmptyText_eq_self h

theorem single?_of_document {a : Answer} (ha : AnswerPlain a) {t : Tree}
    (h : (singleDocument a).Of t) : single? t = some a := by
  obtain ⟨hips', hipsv6', hclient', hextra'⟩ := ha
  have htexts {l : List String} := texts_read (by decide : 0 < maxDepth - 1) (l := l)
  obtain ⟨fs, hfs, hstated⟩ := h.fields (show singleFields.Nodup by decide)
    (by decide : 0 < maxDepth)
  simp only [singleDocument, List.forall_mem_cons] at hstated
  obtain ⟨hhost, hips, hipsv6, httl, horigin, hclient, hextra, -⟩ := hstated
  have hfields : t.fields singleFields maxDepth = some fs := hfs
  have hnull (hnone : a.extra = none) : a.extra.map Value.text = none := by rw [hnone]; rfl
  simp only [single?, hfields, Option.bind_eq_bind, Option.bind_some,
    get_of_stated hhost (fun _ => text?_of_says) id, get_of_stated hips htexts id,
    get_of_stated hipsv6 htexts id, get_of_stated httl (fun _ => word32?_of_counts) id,
    get_of_stated horigin (fun _ => word32?_of_counts) id,
    get_of_stated hclient (fun _ => textOrNull?_of_says) id,
    get_of_stated hextra (fun _ ht => valueOrNull?_of_says ht _) hnull,
    nonEmpty_eq_self hips', nonEmpty_eq_self hipsv6', nonEmptyText_eq_self hclient',
    bind_extraText hextra']
  rfl

theorem entryOf?_of_document {a : Answer} {recordType : UInt16} {ips ipsv6 : List String} {t : Tree}
    (h : (entryDocument a recordType ips ipsv6).Of t) :
    entryOf? t = some ⟨a.host, ips, ipsv6, recordType, a.ttl, a.originTtl, a.clientIp⟩ := by
  have htexts {l : List String} := texts_read (by decide : 0 < maxDepth - 3) (l := l)
  obtain ⟨fs, hfs, hstated⟩ := h.fields (show entryFields.Nodup by decide)
    (by decide : 0 < maxDepth - 2)
  simp only [entryDocument, List.forall_mem_cons] at hstated
  obtain ⟨hhost, hips, hipsv6, htype, httl, horigin, hclient, -⟩ := hstated
  have hfields : t.fields entryFields (maxDepth - 2) = some fs := hfs
  simp only [hfields, entryOf?, Option.bind_eq_bind, Option.bind_some,
    get_of_stated hhost (fun _ => text?_of_says) id, get_of_stated hips htexts id,
    get_of_stated hipsv6 htexts id, get_of_stated htype (fun _ => word16?_of_counts) id,
    get_of_stated httl (fun _ => word32?_of_counts) id,
    get_of_stated horigin (fun _ => word32?_of_counts) id,
    get_of_stated hclient (fun _ => textOrNull?_of_says) id]
  rfl

/-- An entry of an answer is read as one that answers just that. -/
theorem entryOf?_of_isEntry {a : Answer} (ha : Listed a) {t : Tree} (h : IsEntry a t) :
    ∃ e, entryOf? t = some e ∧ e.host ≠ "" ∧ e.answer = a := by
  obtain ⟨⟨hips, hipsv6, hclient, -⟩, hhost, hextra, hnodup⟩ := ha
  cases h with
  | ipv4 h =>
    refine ⟨_, entryOf?_of_document h, hhost, ?_⟩
    have htype : ¬ (1 : UInt16) = typeAaaa := by decide
    simp only [Entry.answer, if_neg htype, nonEmpty_eq_self hips, nonEmpty_eq_self hipsv6,
      nonEmptyText_eq_self hclient]
    rw [appendNew_eq (by rwa [List.nil_append]), List.nil_append, ← hextra]
  | @ipv6 front back h hnone hsplit =>
    refine ⟨_, entryOf?_of_document h, hhost, ?_⟩
    rw [hsplit, List.mem_append, not_or] at hipsv6
    rw [hsplit] at hnodup
    simp only [Entry.answer, if_pos, nonEmpty_eq_self hipsv6.1, nonEmpty_eq_self hipsv6.2,
      nonEmptyText_eq_self hclient]
    rw [appendNew_eq hnodup, ← hsplit, ← hextra, ← hnone]

theorem answers_of_forall₂ {as : List Answer} {es : List Entry}
    (h : List.Forall₂ (fun a e => e.host ≠ "" ∧ e.answer = a) as es) : answers es = as := by
  unfold answers
  induction h with
  | nil => rfl
  | @cons a e as es he _ ih =>
    have hhost : decide (e.host ≠ "") = true := by simpa using he.1
    rw [List.filter_cons, if_pos hhost, List.map_cons, ih, he.2]

theorem multi?_of_document {as : List Answer} (has : ∀ a ∈ as, Listed a) {t : Tree}
    (h : (multiDocument as).Of t) : ∃ es, multi? t = some es ∧ answers es = as := by
  obtain ⟨fs, hfs, hstated⟩ := h.fields (List.nodup_singleton _) (by decide : 0 < maxDepth)
  simp only [multiDocument, List.forall_mem_cons] at hstated
  have hfields : t.fields ["dns"] maxDepth = some fs := hfs
  simp only [multi?, hfields, Option.bind_eq_bind, Option.bind_some, Fields.get]
  have hdns := hstated.1
  cases hl : fs.lookup "dns" with
  | none =>
    rw [hl] at hdns
    obtain rfl : as = [] := hdns
    exact ⟨[], rfl, rfl⟩
  | some v =>
    rw [hl] at hdns
    obtain ⟨es, hes, hall⟩ := listOf?_of_lists hdns
      (fun a ha t ht => entryOf?_of_isEntry (has a ha) ht) (by decide : 0 < maxDepth - 1)
    exact ⟨es, hes, answers_of_forall₂ hall⟩

theorem decoded {doc : Document} {body : String} (h : Renders doc body) :
    ∃ t, doc.Of t ∧ parse body.toList = some t := by
  obtain ⟨t, ht, hw⟩ := h
  exact ⟨t, ht, parse_eq_some_iff.2 hw⟩

theorem readSchedule_of_renders {r : Roster} (hr : RosterPlain r) {body : String}
    (h : Renders (scheduleDocument r) body) : readSchedule body = r := by
  obtain ⟨t, ht, hparse⟩ := decoded h
  rw [readSchedule, hparse, Option.bind_some, schedule?_of_document hr ht]
  rfl

theorem readSingle_of_renders {a : Answer} (ha : AnswerPlain a) {body : String}
    (h : Renders (singleDocument a) body) : readSingle body = some a := by
  obtain ⟨t, ht, hparse⟩ := decoded h
  rw [readSingle, hparse, Option.bind_some, single?_of_document ha ht]

theorem readMulti_of_renders {as : List Answer} (has : ∀ a ∈ as, Listed a) {body : String}
    (h : Renders (multiDocument as) body) : readMulti body = as := by
  obtain ⟨t, ht, hparse⟩ := decoded h
  obtain ⟨es, hes, hanswers⟩ := multi?_of_document has ht
  rw [readMulti, hparse, Option.bind_some, hes]
  exact hanswers

/-! ## Writing the documented bodies -/

def textsValue (l : List String) : Value :=
  .list (l.map .text)

def textOrNull (s : Option String) : Value :=
  (s.map Value.text).getD .null

def countValue (n : UInt32) : Value :=
  .number (.whole n.toNat)

def scheduleValue (r : Roster) : Value :=
  .object [("service_ip", textsValue r.ipv4), ("service_ipv6", textsValue r.ipv6)]

def singleValue (a : Answer) : Value :=
  .object [("host", .text a.host), ("ips", textsValue a.ips), ("ipsv6", textsValue a.ipsv6),
    ("ttl", countValue a.ttl), ("origin_ttl", countValue a.originTtl),
    ("client_ip", textOrNull a.clientIp), ("extra", textOrNull a.extra)]

def entryValue (a : Answer) : Value :=
  .object [("host", .text a.host), ("ips", textsValue a.ips), ("ipsv6", textsValue a.ipsv6),
    ("type", countValue 1), ("ttl", countValue a.ttl), ("origin_ttl", countValue a.originTtl),
    ("client_ip", textOrNull a.clientIp)]

def multiValue (as : List Answer) : Value :=
  .object [("dns", .list (as.map entryValue))]

theorem writes_texts (l : List String) : Writes (Lists Says l) (textsValue l).write := by
  refine writes_list (List.forall₂_map_right_iff.2 (List.forall₂_same.2 fun s _ => ?_))
  exact writes_text s

theorem writes_entry (a : Answer) : Writes (IsEntry a) (entryValue a).write := by
  refine Writes.imp (writes_object ?_) fun t => IsEntry.ipv4
  exact .cons ⟨rfl, writes_text _⟩ (.cons ⟨rfl, writes_texts _⟩ (.cons ⟨rfl, writes_texts _⟩
    (.cons ⟨rfl, writes_count _⟩ (.cons ⟨rfl, writes_count _⟩ (.cons ⟨rfl, writes_count _⟩
      (.cons ⟨rfl, writes_textOrNull _⟩ .nil))))))

theorem renders_of_writes {doc : Document} {v : Value} (h : Writes doc.Of v.write) :
    Renders doc (String.ofList v.write) := by
  obtain ⟨t, ht, hjoined⟩ := h
  refine ⟨t, ht, ?_⟩
  rw [String.toList_ofList]
  exact lexed_of_joined hjoined

theorem renders_schedule (r : Roster) :
    Renders (scheduleDocument r) (String.ofList (scheduleValue r).write) :=
  renders_of_writes (writes_object
    (.cons ⟨rfl, writes_texts _⟩ (.cons ⟨rfl, writes_texts _⟩ .nil)))

theorem renders_single (a : Answer) :
    Renders (singleDocument a) (String.ofList (singleValue a).write) :=
  renders_of_writes (writes_object
    (.cons ⟨rfl, writes_text _⟩ (.cons ⟨rfl, writes_texts _⟩ (.cons ⟨rfl, writes_texts _⟩
      (.cons ⟨rfl, writes_count _⟩ (.cons ⟨rfl, writes_count _⟩
        (.cons ⟨rfl, writes_textOrNull _⟩ (.cons ⟨rfl, writes_textOrNull _⟩ .nil))))))))

theorem renders_multi (as : List Answer) :
    Renders (multiDocument as) (String.ofList (multiValue as).write) := by
  refine renders_of_writes (writes_object (.cons ⟨rfl, writes_list ?_⟩ .nil))
  exact List.forall₂_map_right_iff.2 (List.forall₂_same.2 fun a _ => writes_entry a)

/-- Every roster, every answer and every list of answers has a text as the documented body, and
whichever of these is read gives it back. -/
theorem reading_undoes_rendering :
    (∀ r : Roster, RosterPlain r → (∃ body, Renders (scheduleDocument r) body)
      ∧ ∀ body, Renders (scheduleDocument r) body → readSchedule body = r) ∧
    (∀ a : Answer, AnswerPlain a → (∃ body, Renders (singleDocument a) body)
      ∧ ∀ body, Renders (singleDocument a) body → readSingle body = some a) ∧
    ∀ as : List Answer, (∀ a ∈ as, Listed a) → (∃ body, Renders (multiDocument as) body)
      ∧ ∀ body, Renders (multiDocument as) body → readMulti body = as :=
  ⟨fun r hr => ⟨⟨_, renders_schedule r⟩, fun _ => readSchedule_of_renders hr⟩,
    fun a ha => ⟨⟨_, renders_single a⟩, fun _ => readSingle_of_renders ha⟩,
    fun as has => ⟨⟨_, renders_multi as⟩, fun _ => readMulti_of_renders has⟩⟩

end HttpDns.Reply
