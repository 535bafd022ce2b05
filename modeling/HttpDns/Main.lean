import HttpDns.CommandLine.Lookup
import HttpDns.Config.Load
import HttpDns.Detector
import HttpDns.SystemResolver

/-!
# The command

Reads the arguments and the configuration file, runs the lookups and prints an answer a line. The
command has no transport of its own: every exchange fails, so only numeric hosts are answered, and
these by the fallback.
-/

namespace HttpDns.Command

/-- What the services of the command know about the machine it runs on. -/
structure Machine where
  detector : Detector
  /-- a number drawn when the command starts -/
  seed : Nat

/-- A machine without routes that knows numeric hosts only. -/
def surroundings : Surroundings := ⟨false, false, SystemResolver.literalOnly⟩

def refused : Reply := .error (.http "no transport")

def send (_ : Exchange) (m : Machine) : Reply × Machine := (refused, m)

def services : Services Machine :=
  Services.withJson
    { stack := fun m =>
        let (stack, detector) := m.detector.detect surroundings
        (stack, { m with detector })
      pick := fun m => (none, m)
      pickOther := fun _ m => (none, m)
      sample := fun _ _ m => m
      lookup := fun _ _ m => (none, m)
      rotate := fun _ m => m
      store := fun _ m => m
      send := send
      sendAll := sendEach send
      readSchedule := fun _ m => ({}, m)
      readSingle := fun _ m => (none, m)
      readMulti := fun _ m => ([], m)
      signer := Signature.sign
      seconds := fun _ => 0
      instant := fun _ => 0
      chance := fun n m => (m.seed % n, m)
      nonce := fun m => (toString m.seed, m)
      systemLookup := fun host m => (SystemResolver.literalOnly host, m) }

def usage : String := "\n".intercalate
  ["Resolve host names through an HTTPDNS service",
    "",
    "Usage: httpdns [OPTIONS] [HOSTS]...",
    "",
    "Options:",
    "  -c, --config <CONFIG>            Path to a TOML configuration file",
    "  -a, --account-id <ACCOUNT_ID>    HTTPDNS account id",
    "      --secret-key <SECRET_KEY>    Secret key; enables signed requests",
    "  -t, --type <QUERY_TYPE>          Record type: A, AAAA, BOTH or AUTO",
    "      --timeout-ms <TIMEOUT_MS>    Per-request timeout in milliseconds",
    "      --retry-times <RETRY_TIMES>  Extra attempts after a failed exchange",
    "      --http                       Use plain HTTP instead of HTTPS",
    "      --no-cache                   Bypass the answer cache",
    "  -b, --batch                      Send hosts in batched requests",
    "  -f, --fallback                   Fall back to the system resolver",
    "      --detect-stack               Print the detected IP stack and exit",
    "      --log-level <LOG_LEVEL>      Log level override",
    "  -h, --help                       Print help",
    "  -V, --version                    Print version"]

def complaint : CommandLine.Refusal → String
  | .help => usage
  | .version => "httpdns " ++ ({} : ClientConfig).sdkVersion
  | .unknownFlag => "error: unexpected argument found"
  | .valueMissing _ => "error: a value is required but none was supplied"
  | .valueRejected _ value => "error: invalid value '" ++ value ++ "'"
  | .repeated => "error: an argument cannot be used multiple times"
  | .valueUnneeded _ => "error: unexpected value found; no more were expected"
  | .hostMissing => "error: the required arguments were not provided: <HOSTS>..."

def faultOf : IO.Error → ReadFault
  | .noFileOrDirectory .. => .notFound
  | .permissionDenied .. => .denied
  | .inappropriateType _ code _ => if code = 21 then .isDirectory else .notDirectory
  | .invalidArgument _ code _ => if code = 36 then .nameTooLong else .other code.toNat
  | .otherError code _ => if code = 36 then .nameTooLong else .other code.toNat
  | _ => .other 5

def readBytes (path : String) : IO (Except ReadFault ByteArray) := do
  if path.toList.contains '\x00' then return .error .nulInPath
  try
    return .ok (← IO.FS.readBinFile path)
  catch e => return .error (faultOf e)

def source (path : Option String) : IO FileSource := do
  match path with
  | none => return fun _ => .error .notFound
  | some path =>
    let bytes ← readBytes path
    return fun _ => bytes

def fail (message : String) : IO UInt32 := do
  IO.eprintln ("Error: " ++ message)
  return 1

def resolve (c : Client) (i : CommandLine.Invocation) : IO UInt32 := do
  let seed ← IO.rand 0 0x3fffffff
  let machine : Machine := ⟨⟨c.config.probeDomain, c.config.netStackCache, .unknown⟩, seed⟩
  if i.detectStack then
    IO.println (services.stack machine).1.name
    return 0
  let (answers, _, _) := CommandLine.answers services c i (c.initial machine)
  match answers with
  | .error e => fail e.message
  | .ok answers =>
    for r in answers do IO.println (CommandLine.line r)
    return 0

def run (args : List String) : IO UInt32 := do
  match CommandLine.parse args with
  | .error .help => IO.println usage; return 0
  | .error .version => IO.println (complaint .version); return 0
  | .error refusal => IO.eprintln (complaint refusal); return 2
  | .ok i =>
    match Config.loadValid (← source i.configPath) i.configPath i.overrides with
    | .error e => fail e.message
    | .ok config =>
      match Client.new config.client with
      | .error e => fail e.message
      | .ok client => resolve client i

end HttpDns.Command

def main (args : List String) : IO UInt32 :=
  HttpDns.Command.run args
