import ClusterReadiness.Number.Basic
import ClusterReadiness.Text.Quoted

/-!
Everything that can go wrong, by cause, with the name and the text it is reported under. A `Failure`
is a fault together with the chain of faults that led to it, nearest first. `Fault.lineage` lists
the kinds a fault belongs to, from its own to the most general one.
-/

namespace ClusterReadiness

/-- Ways in which an HTTP request fails before there is an answer. -/
inductive TransportKind where
  | connectTimeout | readTimeout | writeTimeout | poolTimeout | anyTimeout
  | connectError | readError | writeError | closeError | networkError
  | localProtocol | remoteProtocol | protocolError | proxyError | unsupportedProtocol
  | transportError | decodingError | tooManyRedirects | requestError | httpError | invalidUrl
deriving DecidableEq, Repr

namespace TransportKind

def requestFamily : List String := ["RequestError", "HTTPError"]

def transportFamily : List String := "TransportError" :: requestFamily

def timeoutFamily : List String := "TimeoutException" :: transportFamily

def networkFamily : List String := "NetworkError" :: transportFamily

def protocolFamily : List String := "ProtocolError" :: transportFamily

def lineage : TransportKind → List String
  | connectTimeout => "ConnectTimeout" :: timeoutFamily
  | readTimeout => "ReadTimeout" :: timeoutFamily
  | writeTimeout => "WriteTimeout" :: timeoutFamily
  | poolTimeout => "PoolTimeout" :: timeoutFamily
  | anyTimeout => timeoutFamily
  | connectError => "ConnectError" :: networkFamily
  | readError => "ReadError" :: networkFamily
  | writeError => "WriteError" :: networkFamily
  | closeError => "CloseError" :: networkFamily
  | networkError => networkFamily
  | localProtocol => "LocalProtocolError" :: protocolFamily
  | remoteProtocol => "RemoteProtocolError" :: protocolFamily
  | protocolError => protocolFamily
  | proxyError => "ProxyError" :: transportFamily
  | unsupportedProtocol => "UnsupportedProtocol" :: transportFamily
  | transportError => transportFamily
  | decodingError => "DecodingError" :: requestFamily
  | tooManyRedirects => "TooManyRedirects" :: requestFamily
  | requestError => requestFamily
  | httpError => ["HTTPError"]
  | invalidUrl => ["InvalidURL"]

end TransportKind

/-- What a broker client reports: a coded error of the cluster, a bare text, or nothing at all. -/
inductive BrokerError where
  | coded (code : Int) (message : String)
  | plain (message : String)
  | blank
deriving DecidableEq, Repr

namespace BrokerError

/-- The code with which a cluster refuses to create a topic that is already there. -/
def topicAlreadyExists : Int := 36

def codeNames : List (Int × String) := [
  (36, "TOPIC_ALREADY_EXISTS"), (29, "TOPIC_AUTHORIZATION_FAILED"), (7, "REQUEST_TIMED_OUT"),
  (3, "UNKNOWN_TOPIC_OR_PART"), (17, "TOPIC_EXCEPTION"), (37, "INVALID_PARTITIONS"),
  (38, "INVALID_REPLICATION_FACTOR"), (41, "NOT_CONTROLLER"), (44, "POLICY_VIOLATION"),
  (0, "NO_ERROR"), (-195, "_TRANSPORT"), (-185, "_TIMED_OUT"), (-1, "UNKNOWN"),
  (1, "OFFSET_OUT_OF_RANGE")]

def codeName (code : Int) : String :=
  match codeNames.lookup code with
  | some name => name
  | none => "ERR_" ++ toString code ++ "?"

def message : BrokerError → String
  | coded code text =>
    "KafkaError\x7bcode=" ++ codeName code ++ ",val=" ++ toString code ++ ",str=\"" ++ text ++ "\"\x7d"
  | plain text => text
  | blank => ""

end BrokerError

/-- Why a file could not be read. -/
inductive FileFault where
  | missing
  | isDirectory
  | notDirectory
deriving DecidableEq, Repr

inductive Fault where
  | userInterrupt (message : String)
  | runtime (message : String)
  | invalidValue (message : String)
  | wrongType (message : String)
  | missingKey (key : String)
  | timeout (message : String)
  | system (message : String)
  | file (reason : FileFault) (path : String)
  | undecodable (message : String)
  | overflow (reason : Overflow)
  | invalidData (message : String)
  | broker (error : BrokerError)
  | transport (kind : TransportKind) (message : String)
  | reconciler (message : String)
  | configuration (message : String)
  | adminCall (operation message : String)
  | retryExhausted (attempts : Int) (last : Fault)
  | fatal (message : String)
  | topicCreation (message : String)
  | topicListing (message : String)
  | topicNotReady (topic : String) (attempts : Int)
  | registryNotReady (attempts : Int)
  | interruptedWait (message : String)
deriving DecidableEq

namespace FileFault

def message (path : String) : FileFault → String
  | missing => "[Errno 2] No such file or directory: " ++ Text.quoted path
  | isDirectory => "[Errno 21] Is a directory: " ++ Text.quoted path
  | notDirectory => "[Errno 20] Not a directory: " ++ Text.quoted path

def name : FileFault → String
  | missing => "FileNotFoundError"
  | isDirectory => "IsADirectoryError"
  | notDirectory => "NotADirectoryError"

end FileFault

namespace Fault

def message : Fault → String
  | userInterrupt text | runtime text | invalidValue text | wrongType text | timeout text
  | system text | undecodable text | invalidData text | reconciler text | configuration text
  | fatal text | topicCreation text | topicListing text | interruptedWait text => text
  | missingKey key => Text.quoted key
  | file reason path => reason.message path
  | overflow reason => reason.message
  | broker error => error.message
  | transport _ text => text
  | adminCall operation text => operation ++ ": " ++ text
  | retryExhausted attempts last =>
    "gave up after " ++ toString attempts ++ " attempt(s): " ++ last.message
  | topicNotReady topic attempts =>
    "topic " ++ Text.quoted topic ++ " not visible after " ++ toString attempts ++ " attempt(s)"
  | registryNotReady attempts =>
    "schema registry not healthy after " ++ toString attempts ++ " attempt(s)"

def reconcilerFamily : List String := ["ReconcilerError", "Exception"]

def fatalFamily : List String := "FatalReconcileError" :: reconcilerFamily

/-- A user interrupt stands outside the family that handlers of ordinary faults take. -/
def lineage : Fault → List String
  | userInterrupt _ => []
  | runtime _ => ["RuntimeError", "Exception"]
  | invalidValue _ => ["ValueError", "Exception"]
  | wrongType _ => ["TypeError", "Exception"]
  | missingKey _ => ["KeyError", "LookupError", "Exception"]
  | timeout _ => ["TimeoutError", "OSError", "Exception"]
  | system _ => ["OSError", "Exception"]
  | file reason _ => [reason.name, "OSError", "Exception"]
  | undecodable _ => ["UnicodeDecodeError", "UnicodeError", "ValueError", "Exception"]
  | overflow _ => ["OverflowError", "ArithmeticError", "Exception"]
  | invalidData _ => ["ValidationError", "DecodeError", "Exception"]
  | broker _ => ["KafkaException", "Exception"]
  | transport kind _ => kind.lineage ++ ["Exception"]
  | reconciler _ => reconcilerFamily
  | configuration _ => "ConfigurationError" :: reconcilerFamily
  | adminCall _ _ => "AdminCallFailed" :: reconcilerFamily
  | retryExhausted _ _ => "RetryExhausted" :: reconcilerFamily
  | fatal _ => fatalFamily
  | topicCreation _ => "TopicCreationFailed" :: fatalFamily
  | topicListing _ => "TopicListingFailed" :: fatalFamily
  | topicNotReady _ _ => "TopicNotReadyInTime" :: fatalFamily
  | registryNotReady _ => "RegistryNotReadyInTime" :: fatalFamily
  | interruptedWait _ => "InterruptedDuringWait" :: fatalFamily

def name : Fault → String
  | userInterrupt _ => "KeyboardInterrupt"
  | fault => fault.lineage.headD "Exception"

def isUserInterrupt : Fault → Bool
  | userInterrupt _ => true
  | _ => false

def isInterruptedWait : Fault → Bool
  | interruptedWait _ => true
  | _ => false

/-- Whether a failed call may be made again: not after an interrupt of either kind. -/
def isRetryable (fault : Fault) : Bool := !fault.isUserInterrupt && !fault.isInterruptedWait

end Fault

structure Failure where
  fault : Fault
  causes : List Fault
deriving DecidableEq

namespace Failure

def of (fault : Fault) : Failure := ⟨fault, []⟩

/-- The fault raised because of an earlier failure. -/
def because (fault : Fault) (cause : Failure) : Failure := ⟨fault, cause.fault :: cause.causes⟩

def message (failure : Failure) : String := failure.fault.message

def name (failure : Failure) : String := failure.fault.name

def isUserInterrupt (failure : Failure) : Bool := failure.fault.isUserInterrupt

def isRetryable (failure : Failure) : Bool := failure.fault.isRetryable

end Failure

/-- What an action comes to: a value, or the failure that ended it. -/
abbrev Result (α : Type) := Except Failure α

end ClusterReadiness
