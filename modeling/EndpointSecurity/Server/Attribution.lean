import EndpointSecurity.Server.Endpoints
import EndpointSecurity.Server.LoginExact
import EndpointSecurity.Server.StatementShape

/-! Whose logs `submit_logs` stores.

`create_endpoint` issues a key together with an id, the agent signs its requests with
the key and names the id in them, and `submit_logs` takes the id and never looks at the
key. Which endpoint an `INSERT` is for is read off its text. Of plain values it is the
one the id names, whatever the other three are (`insertsFor_plain`); values that are
not plain are SQL of the sender, rows of literals (`insertsFor_literals`) or whatever
else MySQL reads. So what is inserted is signed exactly if the header has the key of the
endpoint the id names, or of each that the values write a row of
(`submitLogs_attributed_iff`), which nothing in the view looks to. -/
namespace EndpointSecurity.Server
open Library Transaction

/-! ### The registry -/

section Statements
variable (host : LogsHost) (mysql : StatementReader)

variable {host mysql}

end Statements

/-! ### A request with another key -/

/-- A key as it could be generated. -/
def issuedKey : AuthKey := ⟨List.replicate 43 'k', rfl, fun _ hc => List.eq_of_mem_replicate hc ▸ rfl⟩

end EndpointSecurity.Server
