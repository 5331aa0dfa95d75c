import Concordance.Text.Basic

set_option autoImplicit false

/-!
# Completion services

A completion service is reached at an endpoint, for which only the two schemes of the web will do.
-/

namespace Concordance

/-- Whether a text starts like the address of a web service. -/
def isWebAddress (t : Text) : Bool := Text.startsWith "http://" t || Text.startsWith "https://" t

/-- A completion service as it is addressed. -/
structure Service where
  /-- The address, without slashes at its end. -/
  endpoint : Text
  model : Text
  apiKey : Text
deriving DecidableEq

/-- Why a service gives no reply. -/
inductive ServiceError where
  | invalidEndpoint (endpoint : Text)
  | unreachable
deriving DecidableEq

namespace ServiceError

/-- The wording of an error. -/
def message : ServiceError → Text
  | invalidEndpoint endpoint => "Invalid endpoint URL: " ++ endpoint
  | unreachable => "HTTP request failed"

end ServiceError

namespace Service

/-- The service at an endpoint. -/
def at? (endpoint model apiKey : Text) : Except ServiceError Service :=
  let endpoint := Text.trimEndOf (· = '/') endpoint
  if isWebAddress endpoint then .ok { endpoint := endpoint, model := model, apiKey := apiKey }
  else .error (.invalidEndpoint endpoint)

/-- The reply to a prompt. This library has no transport, so each request ends like one to a
service that cannot be reached. -/
def complete (_ : Service) (_ : Text) : Except ServiceError Text := .error .unreachable

end Service

end Concordance
