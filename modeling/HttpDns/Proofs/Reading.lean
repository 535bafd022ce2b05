import HttpDns.Proofs.FormEncoding
import HttpDns.Url
import Mathlib.Data.List.Forall2
import Mathlib.Data.List.Nodup
import Mathlib.Data.List.TakeDrop
import Mathlib.Data.String.Basic

/-!
# Resolve URLs read back

A resolve URL can be read without knowing the request: what follows the server is cut at its
question mark, slash, ampersands, equals signs and the commas between hosts, and every piece is
form-decoded (`readTail`). That gives back what the request asks for, each thing under a name of its
own (`resolve_reads`), so no value can pass for another parameter and requests that get the same URL
ask for the same.
-/

namespace HttpDns

/-- The extra parameters stand in ascending order of their keys. -/
def Request.KeysAscend (r : Request) : Prop :=
  (r.sdns.map (·.1)).Pairwise (· < ·)

instance (r : Request) : Decidable r.KeysAscend :=
  inferInstanceAs (Decidable ((r.sdns.map (·.1)).Pairwise (· < ·)))

namespace Request

theorem mem_insertPair {key value : String} {pair : String × String} :
    ∀ {pairs : List (String × String)}, pair ∈ insertPair key value pairs →
      pair = (key, value) ∨ pair ∈ pairs
  | [], h => .inl (List.mem_singleton.1 h)
  | (k, v) :: rest, h => by
    rw [insertPair] at h
    split at h
    · exact List.mem_cons.1 h
    · split at h
      · exact (List.mem_cons.1 h).imp id (List.mem_cons_of_mem _)
      · rcases List.mem_cons.1 h with rfl | h
        · exact .inr List.mem_cons_self
        · exact (mem_insertPair h).imp id (List.mem_cons_of_mem _)

theorem pairwise_insertPair (key value : String) : ∀ {pairs : List (String × String)},
    (pairs.map (·.1)).Pairwise (· < ·) → ((insertPair key value pairs).map (·.1)).Pairwise (· < ·)
  | [], _ => List.pairwise_singleton _ _
  | (k, v) :: rest, h => by
    obtain ⟨hk, hrest⟩ := List.pairwise_cons.1 h
    rw [insertPair]
    split
    · rename_i hlt
      refine List.pairwise_cons.2 ⟨fun k' hk' => ?_, h⟩
      rcases List.mem_cons.1 hk' with rfl | hk'
      · exact hlt
      · exact hlt.trans (hk k' hk')
    · rename_i hnlt
      split
      · rename_i heq
        exact List.pairwise_cons.2 ⟨fun k' hk' => heq ▸ hk k' hk', hrest⟩
      · rename_i hne
        have hlt : k < key := lt_of_le_of_ne (not_lt.1 hnlt) (Ne.symm hne)
        refine List.pairwise_cons.2 ⟨fun k' hk' => ?_, pairwise_insertPair key value hrest⟩
        obtain ⟨pair, hpair, rfl⟩ := List.mem_map.1 hk'
        rcases mem_insertPair hpair with rfl | hpair
        · exact hlt
        · exact hk pair.1 (List.mem_map.2 ⟨pair, hpair, rfl⟩)

theorem KeysAscend.withSdns {r : Request} (h : r.KeysAscend) (key value : String) :
    (r.withSdns key value).KeysAscend :=
  pairwise_insertPair key value h

end Request

namespace Url

open Text.Form

/-! ## Reading -/

/-- What follows the server of a URL, read; a parameter has one value unless it lists hosts. -/
structure Reading where
  accountId : String
  operation : String
  params : List (String × List String)
  deriving DecidableEq, Repr

def Reading.names (t : Reading) : List String :=
  t.params.map (·.1)

def readValue (name : String) (value : List Char) : Option (List String) :=
  (if name = "host" then Text.split ',' value else [value]).mapM decode

/-- Cuts a parameter at its first equals sign. -/
def readParam (piece : List Char) : Option (String × List String) :=
  match piece.span (· ≠ '=') with
  | (_, []) => none
  | (name, _ :: value) => do
    let name ← decode name
    let values ← readValue name value
    pure (name, values)

def readTail (tail : List Char) : Option Reading :=
  match Text.split '?' tail with
  | [path, query] =>
    match Text.split '/' path with
    | [account, operation] => do
      let accountId ← decode account
      let operation ← decode operation
      let params ← (Text.split '&' query).mapM readParam
      pure ⟨accountId, operation, params⟩
    | _ => none
  | _ => none

/-! ## What a request asks for -/

/-- The client address that is sent. -/
def sentIp? (r : Request) : Option String :=
  r.clientIp.filter (· ≠ "")

/-- The signature that is sent. -/
def signature? (sender : Sender) (r : Request) (now : Nat) : Option Signature :=
  if isSigned r then some (sender.signer r.host (r.secretKey.getD "") sender.validityMs now)
  else none

/-- What a resolve URL tells. -/
def told (sender : Sender) (r : Request) (q : QueryType) (now : Nat) : Reading where
  accountId := r.accountId
  operation := operation r
  params :=
    [("host", r.hosts), ("query", [q.wireToken])]
      ++ (signature? sender r now).toList.flatMap
        (fun s => [("s", [s.text]), ("t", [toString s.timestamp])])
      ++ (sentIp? r).toList.map (fun ip => ("ip", [ip]))
      ++ r.sdns.map (fun pair => ("sdns-" ++ pair.1, [pair.2]))
      ++ [("platform", [sender.platform]), ("sdk_version", [sender.sdkVersion])]

/-- The hosts as they are read: the value that none of them make reads as an empty one. -/
def readHosts (r : Request) : List String :=
  if r.hosts = [] then [""] else r.hosts

/-- What a resolve URL is read as. -/
def heard (sender : Sender) (r : Request) (q : QueryType) (now : Nat) : Reading :=
  { told sender r q now with
    params := ("host", readHosts r) :: (told sender r q now).params.tail }

theorem heard_eq_told (sender : Sender) {r : Request} (h : r.hosts ≠ []) (q : QueryType)
    (now : Nat) : heard sender r q now = told sender r q now := by
  rw [heard, readHosts, if_neg h]
  rfl

/-! ## Parameters -/

/-- The characters at which a tail is cut into parameters. -/
def cuts : List Char :=
  ['&', '?']

theorem mem_separators_of_cuts {sep : Char} (h : sep ∈ cuts) :
    sep ∈ separators ∧ sep ≠ '=' ∧ sep ≠ ',' := by
  rcases List.mem_pair.1 h with rfl | rfl <;> decide

/-- The written parameter reads as a name and its values, and nothing in it cuts a query. -/
structure Param.Reads (p : Param) (told : String × List String) : Prop where
  name_eq : p.name = encode told.1
  value : readValue told.1 p.value = some told.2
  whole : ∀ sep ∈ cuts, sep ∉ p.value

namespace Param.Reads

variable {p : Param} {told : String × List String}

theorem not_mem_write (h : p.Reads told) {sep : Char} (hsep : sep ∈ cuts) : sep ∉ p.write := by
  obtain ⟨hmem, hne, -⟩ := mem_separators_of_cuts hsep
  rw [Param.write, List.mem_append, List.mem_cons, h.name_eq]
  rintro (hname | heq | hvalue)
  · exact not_mem_encode hmem _ hname
  · exact hne heq
  · exact h.whole sep hsep hvalue

theorem readParam_write (h : p.Reads told) : readParam p.write = some told := by
  have hspan : p.write.span (· ≠ '=') = (p.name, '=' :: p.value) := by
    have hname : ∀ c ∈ p.name, decide (c ≠ '=') = true := by
      intro c hc
      rw [h.name_eq] at hc
      simpa using fun he : c = '=' => not_mem_encode (by decide) _ (he ▸ hc)
    rw [List.span_eq_takeWhile_dropWhile, Param.write, List.takeWhile_append_of_pos hname,
      List.dropWhile_append_of_pos hname]
    simp
  rw [readParam, hspan]
  simp [h.name_eq, decode_encode, h.value]

end Param.Reads

theorem encoded_reads {name : String} (hname : encode name = name.toList) (hhost : name ≠ "host")
    (value : String) : (encoded name value).Reads (name, [value]) where
  name_eq := hname.symm
  value := by simp [readValue, encoded, hhost, decode_encode]
  whole sep hsep := not_mem_encode (mem_separators_of_cuts hsep).1 value

/-- A value without plus and percent signs may also stand unwritten. -/
theorem literal_reads {name value : String} (hname : encode name = name.toList)
    (hhost : name ≠ "host") (hvalue : ∀ c ∈ ['&', '?', '+', '%'], c ∉ value.toList) :
    Param.Reads ⟨name.toList, value.toList⟩ (name, [value]) where
  name_eq := hname.symm
  value := by
    have hdecode : decode value.toList = some value :=
      decode_toList (hvalue _ (by decide)) (hvalue _ (by decide))
    simp [readValue, hhost, hdecode]
  whole sep hsep := hvalue sep (List.mem_append_left ['+', '%'] hsep)

theorem mem_join {sep c : Char} : ∀ {pieces : List (List Char)}, c ∈ Text.join sep pieces →
    c = sep ∨ ∃ piece ∈ pieces, c ∈ piece
  | [], h => absurd h List.not_mem_nil
  | [piece], h => .inr ⟨piece, List.mem_singleton_self _, h⟩
  | piece :: next :: rest, h => by
    have h' : c ∈ piece ++ sep :: Text.join sep (next :: rest) := h
    rw [List.mem_append, List.mem_cons] at h'
    rcases h' with h | h | h
    · exact .inr ⟨piece, List.mem_cons_self, h⟩
    · exact .inl h
    · exact (mem_join h).imp id fun ⟨p, hp, hc⟩ => ⟨p, List.mem_cons_of_mem _ hp, hc⟩

theorem mapM_decode (values : List String) :
    (values.map encode).mapM decode = some values := by
  induction values with
  | nil => rfl
  | cons v vs ih => simp [List.mapM_cons, decode_encode, ih]

theorem host_reads (r : Request) :
    Param.Reads ⟨"host".toList, hostValue r⟩ ("host", readHosts r) where
  name_eq := show "host".toList = encode "host" by decide +kernel
  value := by
    have hsplit : Text.split ',' (hostValue r) = (readHosts r).map encode := by
      unfold hostValue readHosts
      split
      · rename_i hnone
        rw [hnone]
        decide +kernel
      · rename_i hsome
        refine Text.split_join (by simpa using hsome) fun piece hpiece => ?_
        obtain ⟨host, -, rfl⟩ := List.mem_map.1 hpiece
        exact not_mem_encode (by decide) host
    rw [readValue, if_pos rfl, hsplit, mapM_decode]
  whole sep hsep hmem := by
    obtain ⟨hsep', -, hne⟩ := mem_separators_of_cuts hsep
    rcases mem_join hmem with heq | ⟨piece, hpiece, hc⟩
    · exact hne heq
    · obtain ⟨host, -, rfl⟩ := List.mem_map.1 hpiece
      exact not_mem_encode hsep' host hc

theorem sdnsParam_reads (pair : String × String) :
    (sdnsParam pair).Reads ("sdns-" ++ pair.1, [pair.2]) where
  name_eq := by
    have h : encode "sdns-" = "sdns-".toList := by decide +kernel
    show "sdns-".toList ++ encode pair.1 = encode ("sdns-" ++ pair.1)
    rw [encode_append, h]
  value := by
    have h : "sdns-" ++ pair.1 ≠ "host" := fun he => by
      simpa using congrArg (·.toList.head?) he
    show readValue ("sdns-" ++ pair.1) (encode pair.2) = some [pair.2]
    simp [readValue, h, decode_encode]
  whole sep hsep := not_mem_encode (mem_separators_of_cuts hsep).1 pair.2

theorem toList_toString_digits (n : Nat) : ∀ c ∈ (toString n).toList, c.isDigit = true := by
  intro c hc
  rw [Nat.toString_eq_repr, Nat.toList_repr] at hc
  exact Nat.isDigit_of_mem_toDigits (by decide) (by decide) hc

theorem timestamp_reads (n : Nat) :
    Param.Reads ⟨['t'], (toString n).toList⟩ ("t", [toString n]) := by
  have hnot : ∀ c ∈ ['&', '?', '+', '%'], c.isDigit ≠ true := by simp [Char.isDigit]
  have hname : encode "t" = ['t'] := by decide +kernel
  exact literal_reads hname (by decide) fun c hc hmem =>
    hnot c hc (toList_toString_digits n c hmem)

/-- Every parameter of a resolve URL reads as what is heard. -/
theorem params_read (sender : Sender) (r : Request) (q : QueryType) (now : Nat) :
    List.Forall₂ Param.Reads (resolveTail sender r q now).params (heard sender r q now).params := by
  have hquery : Param.Reads ⟨"query".toList, q.wireToken.toList⟩ ("query", [q.wireToken]) :=
    literal_reads (by decide +kernel) (by decide) (not_mem_of_all (by cases q <;> decide))
  have hsignature : List.Forall₂ Param.Reads (resolveSignature sender r now)
      ((signature? sender r now).toList.flatMap
        fun s => [("s", [s.text]), ("t", [toString s.timestamp])]) := by
    unfold resolveSignature signature?
    split
    · exact .cons (encoded_reads (by decide +kernel) (by decide) _)
        (.cons (timestamp_reads _) .nil)
    · exact .nil
  have hip : List.Forall₂ Param.Reads (clientIpParam r)
      ((sentIp? r).toList.map fun ip => ("ip", [ip])) := by
    unfold clientIpParam sentIp?
    cases r.clientIp with
    | none => exact .nil
    | some ip =>
      by_cases hempty : ip = ""
      · simp [hempty]
      · simpa [hempty, Option.filter] using
          encoded_reads (by decide +kernel) (by decide) ip
  have hsdns : List.Forall₂ Param.Reads (r.sdns.map sdnsParam)
      (r.sdns.map fun pair => ("sdns-" ++ pair.1, [pair.2])) := by
    rw [List.forall₂_map_left_iff, List.forall₂_map_right_iff, List.forall₂_same]
    exact fun pair _ => sdnsParam_reads pair
  have hsender : List.Forall₂ Param.Reads
      [encoded "platform" sender.platform, encoded "sdk_version" sender.sdkVersion]
      [("platform", [sender.platform]), ("sdk_version", [sender.sdkVersion])] :=
    .cons (encoded_reads (by decide +kernel) (by decide) _)
      (.cons (encoded_reads (by decide +kernel) (by decide) _) .nil)
  have hfirst : List.Forall₂ Param.Reads
      [⟨"host".toList, hostValue r⟩, ⟨"query".toList, q.wireToken.toList⟩]
      [("host", readHosts r), ("query", [q.wireToken])] :=
    .cons (host_reads r) (.cons hquery .nil)
  exact List.rel_append (List.rel_append (List.rel_append (List.rel_append hfirst hsignature) hip)
    hsdns) hsender

/-! ## Tails -/

theorem mapM_readParam : ∀ {ps : List Param} {told : List (String × List String)},
    List.Forall₂ Param.Reads ps told → (ps.map Param.write).mapM readParam = some told
  | _, _, .nil => rfl
  | _, _, .cons h hs => by simp [List.mapM_cons, h.readParam_write, mapM_readParam hs]

theorem not_mem_pieces {sep : Char} (hsep : sep ∈ cuts) :
    ∀ {ps : List Param} {told : List (String × List String)}, List.Forall₂ Param.Reads ps told →
      ∀ piece ∈ ps.map Param.write, sep ∉ piece
  | _, _, .nil, _, h => absurd h List.not_mem_nil
  | _, _, .cons h hs, piece, hpiece => by
    rcases List.mem_cons.1 hpiece with rfl | hpiece
    · exact h.not_mem_write hsep
    · exact not_mem_pieces hsep hs piece hpiece

theorem operation_plain (r : Request) : ∀ c ∈ ['/', '?', '+', '%'], c ∉ (operation r).toList := by
  refine not_mem_of_all ?_
  unfold operation
  split <;> decide

theorem readTail_eq_heard (sender : Sender) (r : Request) (q : QueryType) (now : Nat) :
    readTail (resolveTail sender r q now).write = some (heard sender r q now) := by
  have hreads := params_read sender r q now
  have hplain := operation_plain r
  set params := (resolveTail sender r q now).params with hparams
  have hpath : '?' ∉ encode r.accountId ++ '/' :: (operation r).toList := by
    rw [List.mem_append, List.mem_cons]
    rintro (haccount | heq | hoperation)
    · exact not_mem_encode (by decide) _ haccount
    · cases heq
    · exact hplain '?' (by decide) hoperation
  have hquery : '?' ∉ Text.join '&' (params.map Param.write) := by
    intro hmem
    rcases mem_join hmem with heq | ⟨piece, hpiece, hc⟩
    · cases heq
    · exact not_mem_pieces (by decide) hreads piece hpiece hc
  -- from the outside in: no piece holds a character at which the next larger one is cut
  have hcutTail : Text.split '?' (resolveTail sender r q now).write
      = [encode r.accountId ++ '/' :: (operation r).toList,
          Text.join '&' (params.map Param.write)] := by
    show Text.split '?' (encode r.accountId ++ '/' :: (operation r).toList
      ++ '?' :: Text.join '&' (params.map Param.write)) = _
    rw [Text.split_append_sep _ hpath, Text.split_of_not_mem hquery]
  have hcutPath : Text.split '/' (encode r.accountId ++ '/' :: (operation r).toList)
      = [encode r.accountId, (operation r).toList] := by
    rw [Text.split_append_sep _ (not_mem_encode (by decide) _),
      Text.split_of_not_mem (hplain '/' (by decide))]
  have hcutQuery : Text.split '&' (Text.join '&' (params.map Param.write))
      = params.map Param.write :=
    Text.split_join (by simp [hparams, resolveTail]) (not_mem_pieces (by decide) hreads)
  have hoperation : decode (operation r).toList = some (operation r) :=
    decode_toList (hplain '+' (by decide)) (hplain '%' (by decide))
  rw [readTail, hcutTail]
  simp [hcutPath, hcutQuery, decode_encode, hoperation, mapM_readParam hreads]
  rfl

theorem readTail_write (sender : Sender) {r : Request} (h : r.hosts ≠ []) (q : QueryType)
    (now : Nat) :
    readTail (resolveTail sender r q now).write = some (told sender r q now) := by
  rw [readTail_eq_heard, heard_eq_told sender h]

/-! ## Names -/

/-- The names of the parameters other than the extra ones. -/
def fixedNames : List String :=
  ["host", "query", "s", "t", "ip", "platform", "sdk_version"]

theorem sdns_not_mem_fixedNames (key : String) : "sdns-" ++ key ∉ fixedNames := by
  have hfixed : ∀ name ∈ fixedNames, name.toList.take 5 ≠ "sdns-".toList := by decide
  intro hmem
  exact hfixed _ hmem (by simp [String.toList_append])

theorem names_told (sender : Sender) (r : Request) (q : QueryType) (now : Nat) :
    (told sender r q now).names
      = ["host", "query"] ++ (if isSigned r then ["s", "t"] else [])
        ++ (if (sentIp? r).isSome then ["ip"] else [])
        ++ (r.sdns.map (·.1)).map ("sdns-" ++ ·) ++ ["platform", "sdk_version"] := by
  unfold Reading.names told signature?
  cases isSigned r <;> cases sentIp? r <;> simp

theorem sdns_injective : Function.Injective ("sdns-" ++ ·) := by
  intro key key' h
  have hchars : ("sdns-" ++ key).toList = ("sdns-" ++ key').toList := congrArg String.toList h
  rw [String.toList_append, String.toList_append, List.append_cancel_left_eq] at hchars
  exact String.toList_inj.1 hchars

theorem names_nodup (sender : Sender) {r : Request} (h : r.KeysAscend) (q : QueryType)
    (now : Nat) : (told sender r q now).names.Nodup := by
  set extra := (r.sdns.map (·.1)).map ("sdns-" ++ ·) with hextra
  have hkeys : (r.sdns.map (·.1)).Nodup := h.imp ne_of_lt
  have hapart : ∀ name ∈ fixedNames, ∀ name' ∈ extra, name ≠ name' := by
    rintro name hname name' hname' rfl
    obtain ⟨key, -, hkey⟩ := List.mem_map.1 hname'
    exact sdns_not_mem_fixedNames key (hkey ▸ hname)
  -- the optional names may as well all be there
  have hall : (["host", "query"] ++ ["s", "t"] ++ ["ip"] ++ extra
      ++ ["platform", "sdk_version"]).Nodup := by
    have hperm : (["host", "query", "s", "t", "ip"] ++ (extra ++ ["platform", "sdk_version"])).Perm
        (fixedNames ++ extra) := List.perm_append_comm.append_left _
    rw [List.append_assoc]
    exact hperm.nodup_iff.2
      (List.nodup_append.2 ⟨by decide, List.Nodup.map sdns_injective hkeys, hapart⟩)
  have hsub : (told sender r q now).names.Sublist
      (["host", "query"] ++ ["s", "t"] ++ ["ip"] ++ extra ++ ["platform", "sdk_version"]) := by
    rw [names_told]
    refine .append (.append (.append (.append (.refl _) ?_) ?_) (.refl _)) (.refl _)
    · split <;> simp
    · split <;> simp
  exact hall.sublist hsub

theorem mem_names_iff_isSigned (sender : Sender) (r : Request) (q : QueryType) (now : Nat)
    {name : String} (hname : name ∈ ["s", "t"]) :
    name ∈ (told sender r q now).names ↔ isSigned r = true := by
  have hextra : ∀ key, "sdns-" ++ key ≠ name := by
    rintro key rfl
    rcases List.mem_pair.1 hname with h | h
    · exact sdns_not_mem_fixedNames key (h ▸ by decide)
    · exact sdns_not_mem_fixedNames key (h ▸ by decide)
  rw [names_told]
  rcases List.mem_pair.1 hname with rfl | rfl
  · cases isSigned r <;> simp [hextra]
  · cases isSigned r <;> simp [hextra]

theorem sign_prefix_operation_iff (r : Request) :
    "sign_".toList <+: (operation r).toList ↔ isSigned r = true := by
  unfold operation
  cases r.sdns.isEmpty <;> cases r.usingMulti <;> cases isSigned r <;> decide

/-! ## Agreement -/

theorem assemble_inj {https https' : Bool} {server : String} {t t' : Tail}
    (h : assemble https server t = assemble https' server t') :
    https = https' ∧ t.write = t'.write := by
  have hchars := congrArg String.toList h
  simp only [assemble, String.toList_append, String.toList_ofList, List.append_assoc] at hchars
  by_cases hhttps : https = https'
  · subst hhttps
    simpa using hchars
  · -- after the first four letters one goes on with an s, the other with a colon
    have hfifth := congrArg (·[4]?) hchars
    cases https <;> cases https' <;> simp [schemeName] at hhttps hfifth

theorem filter_told (sender : Sender) (r : Request) (q : QueryType) (now : Nat) :
    (told sender r q now).params.filter (·.1 ∉ fixedNames)
      = r.sdns.map fun pair => ("sdns-" ++ pair.1, [pair.2]) := by
  have hextra : (r.sdns.map fun pair => ("sdns-" ++ pair.1, [pair.2])).filter (·.1 ∉ fixedNames)
      = r.sdns.map fun pair => ("sdns-" ++ pair.1, [pair.2]) := by
    refine List.filter_eq_self.2 fun x hx => ?_
    obtain ⟨pair, -, rfl⟩ := List.mem_map.1 hx
    simpa using sdns_not_mem_fixedNames pair.1
  unfold told
  rw [List.filter_append, List.filter_append, List.filter_append, List.filter_append, hextra]
  cases signature? sender r now <;> cases sentIp? r <;> simp [fixedNames]

/-- What is told leaves no doubt about the fields it is told from. -/
theorem told_inj {sender sender' : Sender} {r r' : Request} {q q' : QueryType} {now now' : Nat}
    (h : told sender r q now = told sender' r' q' now') :
    r.accountId = r'.accountId ∧ operation r = operation r' ∧ r.hosts = r'.hosts ∧
      q.wireToken = q'.wireToken ∧ sentIp? r = sentIp? r' ∧ r.sdns = r'.sdns ∧
      sender.platform = sender'.platform ∧ sender.sdkVersion = sender'.sdkVersion := by
  have hoperation : operation r = operation r' := congrArg Reading.operation h
  have hsigned : isSigned r = isSigned r' := by
    rw [Bool.eq_iff_iff, ← sign_prefix_operation_iff, hoperation, sign_prefix_operation_iff]
  have hparams : (told sender r q now).params = (told sender' r' q' now').params :=
    congrArg Reading.params h
  have hextra : (r.sdns.map fun pair => ("sdns-" ++ pair.1, [pair.2]))
      = r'.sdns.map fun pair => ("sdns-" ++ pair.1, [pair.2]) := by
    rw [← filter_told sender r q now, hparams, filter_told]
  have hsdns : r.sdns = r'.sdns := by
    refine List.map_injective_iff.2 (fun pair pair' hpair => ?_) hextra
    obtain ⟨hkey, hvalue⟩ := Prod.mk.inj hpair
    exact Prod.ext (sdns_injective hkey) (List.singleton_inj.1 hvalue)
  -- with as many extra parameters and signatures on both sides, the lists agree part by part
  unfold told at hparams
  obtain ⟨hfront, hsender⟩ := List.append_inj' hparams rfl
  obtain ⟨hfront, -⟩ := List.append_inj' hfront (by rw [hsdns])
  have hlength : (signature? sender r now).isSome = (signature? sender' r' now').isSome := by
    unfold signature?
    rw [hsigned]
    cases isSigned r' <;> rfl
  obtain ⟨hfront, hip⟩ := List.append_inj hfront (by
    revert hlength
    cases signature? sender r now <;> cases signature? sender' r' now' <;> simp)
  obtain ⟨hfirst, -⟩ := List.append_inj hfront rfl
  have hsentIp : sentIp? r = sentIp? r' := by
    revert hip
    cases sentIp? r <;> cases sentIp? r' <;> simp
  simp only [List.cons.injEq, Prod.mk.injEq, true_and, and_true] at hfirst hsender
  exact ⟨congrArg Reading.accountId h, hoperation, hfirst.1, hfirst.2, hsentIp, hsdns, hsender⟩

/-! ## Resolve URLs -/

/-- What follows the server of a resolve URL reads as what the request asks for, under names that
are all different; it holds a signature exactly when the operation is a signed one. Two requests
that get the same URL for a server agree on the scheme and on everything they tell. -/
theorem resolve_reads (sender : Sender) (r : Request) (server : String) (q : QueryType) (now : Nat)
    (hhosts : r.hosts ≠ []) (hsdns : r.KeysAscend) :
    (∃ tail : List Char,
      resolve sender r server q now
          = schemeName r.usingHttps ++ "://" ++ formatServer server ++ "/" ++ String.ofList tail ∧
        readTail tail = some (told sender r q now)) ∧
      (told sender r q now).names.Nodup ∧
      (∀ name ∈ ["s", "t"], name ∈ (told sender r q now).names ↔
        "sign_".toList <+: (operation r).toList) ∧
      ∀ (sender' : Sender) (r' : Request) (q' : QueryType) (now' : Nat), r'.hosts ≠ [] →
        resolve sender r server q now = resolve sender' r' server q' now' →
          r.usingHttps = r'.usingHttps ∧ r.accountId = r'.accountId ∧
            operation r = operation r' ∧ r.hosts = r'.hosts ∧ q.wireToken = q'.wireToken ∧
            sentIp? r = sentIp? r' ∧ r.sdns = r'.sdns ∧ sender.platform = sender'.platform ∧
            sender.sdkVersion = sender'.sdkVersion := by
  refine ⟨⟨_, rfl, readTail_write sender hhosts q now⟩, names_nodup sender hsdns q now, ?_, ?_⟩
  · intro name hname
    rw [mem_names_iff_isSigned sender r q now hname, sign_prefix_operation_iff]
  · intro sender' r' q' now' hhosts' heq
    obtain ⟨hhttps, htail⟩ := assemble_inj heq
    have htold : told sender r q now = told sender' r' q' now' := by
      have hread := readTail_write sender hhosts q now
      rw [htail, readTail_write sender' hhosts' q' now'] at hread
      exact (Option.some.inj hread).symm
    exact ⟨hhttps, told_inj htold⟩

/-- Values full of separators read back as they are. -/
theorem resolve_reads_awkward :
    let sender : Sender := ⟨fun subject secret _ now => ⟨subject ++ "|" ++ secret, now⟩, "linux",
      "0.3.1", 600000⟩
    let r : Request :=
      { host := " a&b.com ,,ü=%2C.com"
        accountId := "1/0?0"
        secretKey := some "key"
        clientIp := some "fe80::1%eth0"
        usingSign := true
        usingMulti := true
        sdns := [("a=b&c", "1,2"), ("x", "")] }
    (r.hosts ≠ [] ∧ r.KeysAscend) ∧
      (∃ tail : List Char,
        resolve sender r "2001:db8::53" .both 1600
            = "https://[2001:db8::53]/" ++ String.ofList tail ∧
          readTail tail = some ⟨"1/0?0", "sign_sdns",
            [("host", ["a&b.com", "ü=%2C.com"]), ("query", ["4,6"]),
              ("s", [" a&b.com ,,ü=%2C.com|key"]), ("t", ["1600"]), ("ip", ["fe80::1%eth0"]),
              ("sdns-a=b&c", ["1,2"]), ("sdns-x", [""]), ("platform", ["linux"]),
              ("sdk_version", ["0.3.1"])]⟩) := by
  intro sender r
  have hhosts : r.hosts ≠ [] := by decide +kernel
  have hsdns : r.KeysAscend := by decide +kernel
  obtain ⟨⟨tail, hurl, hread⟩, -⟩ :=
    resolve_reads sender r "2001:db8::53" .both 1600 hhosts hsdns
  have hserver : schemeName r.usingHttps ++ "://" ++ formatServer "2001:db8::53" ++ "/"
      = "https://[2001:db8::53]/" := by decide +kernel
  have htold : told sender r .both 1600 = ⟨"1/0?0", "sign_sdns",
      [("host", ["a&b.com", "ü=%2C.com"]), ("query", ["4,6"]),
        ("s", [" a&b.com ,,ü=%2C.com|key"]), ("t", ["1600"]), ("ip", ["fe80::1%eth0"]),
        ("sdns-a=b&c", ["1,2"]), ("sdns-x", [""]), ("platform", ["linux"]),
        ("sdk_version", ["0.3.1"])]⟩ := by decide +kernel
  exact ⟨⟨hhosts, hsdns⟩, tail, hurl.trans (congrArg (· ++ String.ofList tail) hserver),
    hread.trans (congrArg some htold)⟩

end Url

end HttpDns
