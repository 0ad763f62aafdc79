import ClientSession.Table

/-!
# Kinds of failure

Every call that fails does so with one of eight kinds. The order of the kinds is the order in
which they are listed.
-/

namespace ClientSession

inductive FailureKind where
  /-- Credentials are missing, expired or refused. -/
  | auth
  /-- The caller is known and may not do this. -/
  | permission
  /-- Too many calls, for this client or for the server. -/
  | rateLimit
  | server
  | validation
  /-- The connection ended before a response. -/
  | timeout
  | network
  | unknown
deriving DecidableEq, Inhabited

namespace FailureKind

def all : List FailureKind :=
  [auth, permission, rateLimit, server, validation, timeout, network, unknown]

def label : FailureKind → String
  | .auth => "auth"
  | .permission => "permission"
  | .rateLimit => "rate_limit"
  | .server => "server"
  | .validation => "validation"
  | .timeout => "timeout"
  | .network => "network"
  | .unknown => "unknown"

/-- The kind as one word. -/
def word : FailureKind → String
  | .auth => "Auth"
  | .permission => "Permission"
  | .rateLimit => "RateLimit"
  | .server => "Server"
  | .validation => "Validation"
  | .timeout => "Timeout"
  | .network => "Network"
  | .unknown => "Unknown"

def ofLabel? (s : String) : Option FailureKind := all.find? (·.label = s)

def rank : FailureKind → Nat
  | .auth => 0
  | .permission => 1
  | .rateLimit => 2
  | .server => 3
  | .validation => 4
  | .timeout => 5
  | .network => 6
  | .unknown => 7

theorem rank_injective {a b : FailureKind} (h : a.rank = b.rank) : a = b := by
  cases a <;> cases b <;> first | rfl | cases h

instance : KeyOrder FailureKind where
  before a b := decide (a.rank < b.rank)
  before_irrefl a := decide_eq_false (Nat.lt_irrefl a.rank)
  before_trans _ _ _ h₁ h₂ :=
    decide_eq_true (Nat.lt_trans (of_decide_eq_true h₁) (of_decide_eq_true h₂))
  eq_of_incomparable _ _ h₁ h₂ :=
    rank_injective (Nat.le_antisymm (Nat.not_lt.1 (of_decide_eq_false h₂))
      (Nat.not_lt.1 (of_decide_eq_false h₁)))

/-- A second attempt may fare better. -/
def isRetryable : FailureKind → Bool
  | .network | .timeout | .server | .unknown => true
  | .auth | .permission | .validation | .rateLimit => false

end FailureKind

end ClientSession
