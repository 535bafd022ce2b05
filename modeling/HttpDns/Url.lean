import HttpDns.Address.Literal
import HttpDns.Request
import HttpDns.Signature

/-!
# Request URLs

A resolve URL asks a resolver server for hosts, a schedule URL asks a boot server for the list of
resolver servers. Both are a scheme, a server, the account, the name of an operation and a list of
parameters. The query token and the commas between batched hosts are written as they are; every
other value is form-encoded.
-/

namespace HttpDns.Url

/-- A parameter, its name and value in their written forms. -/
structure Param where
  name : List Char
  value : List Char
  deriving DecidableEq, Repr

def Param.write (p : Param) : List Char :=
  p.name ++ '=' :: p.value

/-- A parameter of a fixed name with a form-encoded value. -/
def encoded (name value : String) : Param :=
  ⟨name.toList, Text.Form.encode value⟩

/-- The server as it stands in a URL: an IPv6 literal is bracketed. -/
def formatServer (server : String) : String :=
  if Address.isIpv6Literal server then "[" ++ server ++ "]" else server

/-- What follows the scheme and the server. -/
structure Tail where
  accountId : String
  operation : String
  params : List Param

def Tail.write (t : Tail) : List Char :=
  Text.Form.encode t.accountId ++ '/' :: t.operation.toList ++ '?' ::
    Text.join '&' (t.params.map Param.write)

/-- The URL from its parts. -/
def assemble (usingHttps : Bool) (server : String) (tail : Tail) : String :=
  schemeName usingHttps ++ "://" ++ formatServer server ++ "/" ++ String.ofList tail.write

/-- What a client tells about itself, and how it signs. -/
structure Sender where
  signer : Signer
  platform : String
  sdkVersion : String
  /-- validity of its signatures, in milliseconds -/
  validityMs : Nat

/-- The request is sent signed. -/
def isSigned (r : Request) : Bool :=
  r.usingSign && !noSecret r.secretKey

/-- The operation that answers the request. -/
def operation (r : Request) : String :=
  match r.sdns.isEmpty, r.usingMulti, isSigned r with
  | false, _, false => "sdns"
  | false, _, true => "sign_sdns"
  | true, true, false => "resolve"
  | true, true, true => "sign_resolve"
  | true, false, false => "d"
  | true, false, true => "sign_d"

/-- The hosts with commas between them, each form-encoded. -/
def hostValue (r : Request) : List Char :=
  Text.join ',' (r.hosts.map Text.Form.encode)

def signatureParams (s : Signature) : List Param :=
  [encoded "s" s.text, ⟨['t'], (toString s.timestamp).toList⟩]

/-- The parameters of a signed request; the whole host text is what is signed. -/
def resolveSignature (sender : Sender) (r : Request) (now : Nat) : List Param :=
  if isSigned r then
    signatureParams (sender.signer r.host (r.secretKey.getD "") sender.validityMs now)
  else []

def clientIpParam (r : Request) : List Param :=
  match r.clientIp with
  | none => []
  | some ip => if ip = "" then [] else [encoded "ip" ip]

def sdnsParam (pair : String × String) : Param :=
  ⟨"sdns-".toList ++ Text.Form.encode pair.1, Text.Form.encode pair.2⟩

def resolveTail (sender : Sender) (r : Request) (queryType : QueryType) (now : Nat) : Tail where
  accountId := r.accountId
  operation := operation r
  params :=
    [⟨"host".toList, hostValue r⟩, ⟨"query".toList, queryType.wireToken.toList⟩]
      ++ resolveSignature sender r now ++ clientIpParam r ++ r.sdns.map sdnsParam
      ++ [encoded "platform" sender.platform, encoded "sdk_version" sender.sdkVersion]

/-- The URL that asks a resolver server to answer a request. -/
def resolve (sender : Sender) (r : Request) (server : String) (queryType : QueryType)
    (now : Nat) : String :=
  assemble r.usingHttps server (resolveTail sender r queryType now)

/-- The parameters of a signed schedule request; account and nonce are what is signed. -/
def scheduleSignature (sender : Sender) (c : ClientConfig) (now : Nat) (nonce : String) :
    List Param :=
  match c.secretKey with
  | none => []
  | some secret =>
    if c.usingSign && secret ≠ "" then
      signatureParams (sender.signer (c.accountId ++ "-" ++ nonce) secret sender.validityMs now)
        ++ [encoded "n" nonce]
    else []

def scheduleTail (sender : Sender) (c : ClientConfig) (now : Nat) (nonce : String) : Tail where
  accountId := c.accountId
  operation := "ss"
  params :=
    [encoded "platform" sender.platform, encoded "sdkVersion" sender.sdkVersion,
      encoded "region" c.region] ++ scheduleSignature sender c now nonce

/-- The URL that asks a boot server for the resolver servers. -/
def schedule (sender : Sender) (c : ClientConfig) (boot : String) (now : Nat) (nonce : String) :
    String :=
  assemble c.usingHttps boot (scheduleTail sender c now nonce)

/-- The sender a configuration describes. -/
def Sender.ofConfig (signer : Signer) (c : ClientConfig) : Sender where
  signer := signer
  platform := c.platform
  sdkVersion := c.sdkVersion
  validityMs := c.signOffsetSecs.toNat * 1000

end HttpDns.Url
