/-!
# Errors

The error values of the client library (`types.rs`).  A `RedisError` keeps the
four representations of the source, because several decisions look past the
kind: only a wrapped input/output error counts as `isIoError`, for instance,
while other errors carry `ErrorKind.ioError` too.
-/

namespace ValkeyGlide.Protocol

inductive ErrorKind where
  | responseError
  | parseError
  | authenticationFailed
  | permissionDenied
  | typeError
  | execAbortError
  | busyLoadingError
  | noScriptError
  | invalidClientConfig
  | moved
  | ask
  | tryAgain
  | clusterDown
  | crossSlot
  | masterDown
  | ioError
  | fatalSendError
  | fatalReceiveError
  | clientError
  | circuitBreakerOpen
  | extensionError
  | readOnly
  | masterNameNotFoundBySentinel
  | noValidReplicasFoundBySentinel
  | emptySentinelList
  | notBusy
  | allConnectionsUnavailable
  | connectionNotFoundForRoute
  | resp3NotSupported
  | notAllSlotsCovered
  | userOperationError
  | protocolDesync
  deriving DecidableEq, Repr

inductive ServerErrorKind where
  | responseError
  | execAbortError
  | busyLoadingError
  | noScriptError
  | moved
  | ask
  | tryAgain
  | clusterDown
  | crossSlot
  | masterDown
  | readOnly
  | notBusy
  | permissionDenied
  deriving DecidableEq, Repr

def ServerErrorKind.toErrorKind : ServerErrorKind → ErrorKind
  | .responseError => .responseError
  | .execAbortError => .execAbortError
  | .busyLoadingError => .busyLoadingError
  | .noScriptError => .noScriptError
  | .moved => .moved
  | .ask => .ask
  | .tryAgain => .tryAgain
  | .clusterDown => .clusterDown
  | .crossSlot => .crossSlot
  | .masterDown => .masterDown
  | .readOnly => .readOnly
  | .notBusy => .notBusy
  | .permissionDenied => .permissionDenied

def ErrorKind.toServerErrorKind : ErrorKind → Option ServerErrorKind
  | .responseError => some .responseError
  | .execAbortError => some .execAbortError
  | .busyLoadingError => some .busyLoadingError
  | .noScriptError => some .noScriptError
  | .moved => some .moved
  | .ask => some .ask
  | .tryAgain => some .tryAgain
  | .clusterDown => some .clusterDown
  | .crossSlot => some .crossSlot
  | .masterDown => some .masterDown
  | .readOnly => some .readOnly
  | .notBusy => some .notBusy
  | .permissionDenied => some .permissionDenied
  | _ => none

inductive ServerError where
  | extensionError (code : String) (detail : Option String)
  | knownError (kind : ServerErrorKind) (detail : Option String)
  deriving DecidableEq, Repr

inductive IoErrorKind where
  | brokenPipe
  | connectionReset
  | unexpectedEof
  | timedOut
  | wouldBlock
  | connectionRefused
  | notFound
  | connectionAborted
  | notConnected
  | permissionDenied
  | unsupported
  | other
  deriving DecidableEq, Repr

inductive RedisError where
  | withDescription (kind : ErrorKind) (description : String)
  | withDescriptionAndDetail (kind : ErrorKind) (description detail : String)
  | extensionError (code detail : String)
  | ioError (kind : IoErrorKind)
  deriving DecidableEq, Repr

abbrev RedisResult := Except RedisError

namespace RedisError

def kind : RedisError → ErrorKind
  | withDescription kind _ => kind
  | withDescriptionAndDetail kind _ _ => kind
  | extensionError _ _ => .extensionError
  | ioError _ => .ioError

def detail : RedisError → Option String
  | withDescriptionAndDetail _ _ detail => some detail
  | extensionError _ detail => some detail
  | _ => none

def isIoError : RedisError → Bool
  | ioError _ => true
  | _ => false

def isConnectionDropped (error : RedisError) : Bool :=
  match error.kind with
  | .fatalSendError => true
  | .fatalReceiveError => true
  | _ =>
    match error with
    | ioError .brokenPipe => true
    | ioError .connectionReset => true
    | ioError .unexpectedEof => true
    | _ => false

end RedisError

inductive RetryMethod where
  | reconnect
  | reconnectAndRetry
  | noRetry
  | retryImmediately
  | waitAndRetry
  | askRedirect
  | movedRedirect
  | waitAndRetryOnPrimaryRedirectOnReplica
  | refreshSlotsAndRetry
  deriving DecidableEq, Repr

def IoErrorKind.retryMethod : IoErrorKind → RetryMethod
  | connectionRefused | notFound | connectionReset | connectionAborted | notConnected | brokenPipe
  | unexpectedEof => .reconnect
  | permissionDenied | unsupported | timedOut => .noRetry
  | wouldBlock | other => .retryImmediately

def RedisError.retryMethod (error : RedisError) : RetryMethod :=
  match error.kind with
  | .moved => .movedRedirect
  | .ask => .askRedirect
  | .tryAgain | .masterDown | .clusterDown | .masterNameNotFoundBySentinel
  | .noValidReplicasFoundBySentinel => .waitAndRetry
  | .busyLoadingError => .waitAndRetryOnPrimaryRedirectOnReplica
  | .readOnly => .refreshSlotsAndRetry
  | .responseError | .permissionDenied | .extensionError | .execAbortError | .typeError
  | .noScriptError | .invalidClientConfig | .crossSlot | .clientError | .circuitBreakerOpen
  | .emptySentinelList | .notBusy | .resp3NotSupported | .notAllSlotsCovered
  | .userOperationError | .protocolDesync => .noRetry
  | .parseError | .authenticationFailed | .allConnectionsUnavailable
  | .connectionNotFoundForRoute | .fatalReceiveError => .reconnect
  | .fatalSendError => .reconnectAndRetry
  | .ioError =>
    match error with
    | .ioError kind => kind.retryMethod
    | _ => .retryImmediately

def makeExtensionError (code : String) (detail : Option String) : RedisError :=
  .extensionError code (detail.getD "Unknown extension error encountered")

def ServerError.toRedisError : ServerError → RedisError
  | .extensionError code detail => makeExtensionError code detail
  | .knownError kind (some detail) =>
    .withDescriptionAndDetail kind.toErrorKind "An error was signalled by the server:" detail
  | .knownError kind none =>
    .withDescription kind.toErrorKind "An error was signalled by the server:"

end ValkeyGlide.Protocol
