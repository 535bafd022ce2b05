import HttpDns.Config.Client

/-!
# Errors

The causes for which a configuration cannot be loaded, a request is refused or a lookup fails, and
the message of each.
-/

namespace HttpDns

/-- Why the bytes of a file cannot be read as text. -/
inductive ReadFault
  | notFound
  | notDirectory
  | isDirectory
  | nameTooLong
  | nulInPath
  | denied
  | notUtf8
  /-- any other failure, by its number -/
  | other (code : Nat)
  deriving DecidableEq, Repr

def ReadFault.message : ReadFault → String
  | notFound => "No such file or directory (os error 2)"
  | notDirectory => "Not a directory (os error 20)"
  | isDirectory => "Is a directory (os error 21)"
  | nameTooLong => "File name too long (os error 36)"
  | nulInPath => "file name contained an unexpected NUL byte"
  | denied => "Permission denied (os error 13)"
  | other code => "Input/output failure (os error " ++ toString code ++ ")"
  | notUtf8 => "stream did not contain valid UTF-8"

/-- Why there is no usable configuration. -/
inductive ConfigError
  | fileRead (path : String) (fault : ReadFault)
  /-- the text is no configuration document -/
  | parse
  | validation (fault : ConfigFault)
  deriving DecidableEq, Repr

def ConfigFault.message : ConfigFault → String
  | accountMissing => "client.account_id is required"
  | noBootServer => "at least one boot server must be configured"
  | zeroTimeout => "client.timeout_ms must be greater than zero"
  | tooManyRetries =>
    "client.retry_times cannot exceed " ++ toString ClientConfig.maxRetryTimes.toNat
  | secretMissing => "client.using_sign requires client.secret_key"
  | unknownLevel level => "logging.level '" ++ level ++ "' is not a valid level"

def ConfigError.message : ConfigError → String
  | fileRead path fault => "Failed to read config file " ++ path ++ ": " ++ fault.message
  | parse => "Failed to parse config"
  | validation fault => "Invalid configuration: " ++ fault.message

/-- Why a request is refused before anything is done for it. -/
inductive RequestFault
  | blankHost
  | accountMissing
  | keyedBatch
  | crowdedBatch (hosts : Nat)
  | secretMissing
  deriving DecidableEq, Repr

/-- The greatest number of hosts in one batched request. -/
def maxHostsPerBatch : Nat := 5

/-- Why an answer cannot be added to the cache. -/
inductive CacheFault
  | exists (key : String)
  | emptyKey (host : String)
  deriving DecidableEq, Repr

/-- Why an exchange brought no response. -/
inductive ExchangeFault
  | http (reason : String)
  | timeout (ms : Nat)
  deriving DecidableEq, Repr

inductive Error
  | request (fault : RequestFault)
  | noResolverAvailable
  /-- none of this many boot servers answered -/
  | bootstrapFailed (tried : Nat)
  | cache (fault : CacheFault)
  | exchange (fault : ExchangeFault)
  | config (error : ConfigError)
  deriving DecidableEq, Repr

def RequestFault.message : RequestFault → String
  | blankHost => "Invalid host: host cannot be empty"
  | accountMissing => "Invalid resolve request: account id is missing"
  | keyedBatch => "Invalid resolve request: batched requests cannot carry a cache key"
  | crowdedBatch hosts =>
    "Invalid resolve request: batched request holds " ++ toString hosts ++ " hosts, limit is "
      ++ toString maxHostsPerBatch
  | secretMissing => "Invalid resolve request: signing enabled without a secret key"

def CacheFault.message : CacheFault → String
  | .exists key => "Cache entry already exists: " ++ key
  | .emptyKey host => "Invalid cache key: empty key for host '" ++ host ++ "'"

def ExchangeFault.message : ExchangeFault → String
  | http reason => "HTTP exchange failed: " ++ reason
  | timeout ms => "HTTP exchange timeout after " ++ toString ms ++ "ms"

def Error.message : Error → String
  | request fault => fault.message
  | noResolverAvailable => "No resolver server available"
  | bootstrapFailed tried =>
    "Bootstrap failed: none of " ++ toString tried ++ " boot servers answered"
  | cache fault => fault.message
  | exchange fault => fault.message
  | config error => error.message

end HttpDns
