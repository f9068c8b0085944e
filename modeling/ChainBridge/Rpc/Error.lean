/-
What can go wrong with a question to the node.

Only a failure of kind `transport` is a problem with the node itself; a remote or a decoding failure is an answer about
the state that was asked for.
-/
import ChainBridge.Quantity
import ChainBridge.Text.Quoted

namespace ChainBridge.Rpc

inductive ErrorKind where
  /-- the node was not reached or did not answer in time -/
  | transport
  /-- the node answered with an error -/
  | remote
  /-- the answer is not what the question expects -/
  | decode
deriving DecidableEq, Repr

/-- the kind as a label of a counter -/
def ErrorKind.label : ErrorKind → String
  | .transport => "transport_error"
  | .remote => "remote_error"
  | .decode => "decode_error"

inductive Error where
  | timeout
  | transport (text : String)
  /-- an answer with another status than 2xx -/
  | http (status : UInt16) (text : String)
  | remote (code : Int32) (message : String)
  | decode (text : String)
  | invalidRequest (text : String)
  | concurrencyLimit (text : String)
deriving DecidableEq, Repr

namespace Error

def kind : Error → ErrorKind
  | .timeout | .transport _ | .http .. | .concurrencyLimit _ => .transport
  | .remote .. => .remote
  | .decode _ | .invalidRequest _ => .decode

def isTransport (e : Error) : Bool := e.kind == .transport

def message : Error → String
  | .timeout => "Request timeout"
  | .transport text => "Transport failed: " ++ text
  | .http status text => "HTTP error " ++ toString status.toNat ++ ": " ++ text
  | .remote code message => "Remote error " ++ toString code.toInt ++ ": " ++ message
  | .decode text => "Decode error: " ++ text
  | .invalidRequest text => "Invalid request: " ++ text
  | .concurrencyLimit text => "Concurrency limit reached: " ++ text

/-- the name of the error with its parts, for diagnosis -/
def debug : Error → String
  | .timeout => "Timeout"
  | .transport text => "Transport(" ++ Text.Quoted.text text ++ ")"
  | .http status text => "Http(" ++ toString status.toNat ++ ", " ++ Text.Quoted.text text ++ ")"
  | .remote code message =>
    "Remote \x7b code: " ++ toString code.toInt ++ ", message: " ++ Text.Quoted.text message ++ " \x7d"
  | .decode text => "Decode(" ++ Text.Quoted.text text ++ ")"
  | .invalidRequest text => "InvalidRequest(" ++ Text.Quoted.text text ++ ")"
  | .concurrencyLimit text => "ConcurrencyLimit(" ++ Text.Quoted.text text ++ ")"

/-- a text of the answer that does not read -/
def ofQuantity (fault : QuantityFault) : Error := .decode fault.message

end Error

end ChainBridge.Rpc
