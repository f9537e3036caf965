import ValkeyGlide.Protocol.Error

/-!
# Rotation of IAM tokens

The token manager (`iam/mod.rs`) caches the token that connections authenticate with.  A
rotation writes the new token, then its time stamp, sets the flag `token_changed` and adds one
to the generation (`handle_token_refresh`); each of these is a step of its own, between which
other tasks may run.  A generation that fails leaves everything as it is.

The generation is a number without a bound; the source's counter has 64 bits.
-/

namespace ValkeyGlide.Iam

open Protocol

variable {Token : Type}

structure IamTokenManager (Token : Type) where
  cachedToken : Token
  tokenCreatedAt : Nat
  tokenChanged : Bool
  tokenGeneration : Nat
  deriving DecidableEq, Repr

inductive Rotation (Token : Type) where
  | setCachedToken (newToken : Token)
  | setCreatedAt
  | setTokenChanged
  | bumpGeneration
  deriving DecidableEq, Repr

namespace IamTokenManager

def new (initialToken : Token) (now : Nat) : IamTokenManager Token where
  cachedToken := initialToken
  tokenCreatedAt := now
  tokenChanged := true
  tokenGeneration := 1

def clearTokenChanged (manager : IamTokenManager Token) : IamTokenManager Token :=
  { manager with tokenChanged := false }

def handleTokenRefresh (manager : IamTokenManager Token) (now : Nat) :
    Rotation Token → IamTokenManager Token × Option (Rotation Token)
  | .setCachedToken newToken => ({ manager with cachedToken := newToken }, some .setCreatedAt)
  | .setCreatedAt => ({ manager with tokenCreatedAt := now }, some .setTokenChanged)
  | .setTokenChanged => ({ manager with tokenChanged := true }, some .bumpGeneration)
  | .bumpGeneration => ({ manager with tokenGeneration := manager.tokenGeneration + 1 }, none)

end IamTokenManager

def availableToken (isEmpty : Token → Bool) (manager : IamTokenManager Token) :
    RedisResult Token :=
  if isEmpty manager.cachedToken then
    .error (.withDescription .clientError "IAM token not available")
  else .ok manager.cachedToken

end ValkeyGlide.Iam
