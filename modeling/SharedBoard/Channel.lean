import SharedBoard.Command

/-! What passes between a session and the transport that holds its sockets. -/

namespace SharedBoard

/-- What the transport reports. Generations increase with every socket. -/
inductive TransportEvent where
  | connecting
  | opened (generation : Nat)
  | message (text : String)
  | closed (reason : String)
deriving DecidableEq

/-- What a session asks of the transport. Messages name the generation they were made for. -/
inductive Outgoing (κ : Type) where
  | message (generation : Nat) (message : Message κ)
  | reconnect
  | shutdown
deriving BEq

end SharedBoard
