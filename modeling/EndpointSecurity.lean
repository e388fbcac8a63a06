import EndpointSecurity.Library.Machine
import EndpointSecurity.Agent.Config
import EndpointSecurity.Agent.ConfigLoad
import EndpointSecurity.Agent.Record
import EndpointSecurity.Agent.Tracepoints
import EndpointSecurity.Agent.CJson
import EndpointSecurity.Agent.Submit
import EndpointSecurity.Agent.RecordSafety
import EndpointSecurity.Agent.Buffer
import EndpointSecurity.Library.Json
import EndpointSecurity.Library.Transaction
import EndpointSecurity.Server.Flask
import EndpointSecurity.Server.Mysql
import EndpointSecurity.Server.Users
import EndpointSecurity.Server.UsersRun
import EndpointSecurity.Server.LoginExact
import EndpointSecurity.Dashboard.Login
import EndpointSecurity.Server.Logs
import EndpointSecurity.Server.Endpoints
import EndpointSecurity.Deployment.ConfigFile
import EndpointSecurity.Deployment.NameText
import EndpointSecurity.Library.JsonText
import EndpointSecurity.Library.JsonRoundTrip
import EndpointSecurity.Agent.PrintedText
import EndpointSecurity.Deployment.Delivery
import EndpointSecurity.Agent.DeliveryOrder
import EndpointSecurity.Agent.Sizes
import EndpointSecurity.Library.BackwardScan
import EndpointSecurity.Agent.Trim
import EndpointSecurity.Agent.Acceptance
import EndpointSecurity.Agent.EventTime
import EndpointSecurity.Agent.ExecveCapture
import EndpointSecurity.Server.Reports
import EndpointSecurity.Dashboard.ChangeCredentials
import EndpointSecurity.Server.ConcurrentEndpoints
import EndpointSecurity.Library.Sql
import EndpointSecurity.Server.Attempts
import EndpointSecurity.Server.StatementShape
import EndpointSecurity.Server.Attribution
import EndpointSecurity.Server.EndpointIds
import EndpointSecurity.Deployment.BatchText
import EndpointSecurity.Library.Composition
import EndpointSecurity.Deployment.Fleet
import EndpointSecurity.Deployment.EndToEnd
import EndpointSecurity.Agent.PrintBuffer
import EndpointSecurity.Library.Separation
import EndpointSecurity.Library.LinkedList
import EndpointSecurity.Agent.CJsonHeap
import EndpointSecurity.Agent.CJsonWalk
import EndpointSecurity.Agent.BatchHeap
import EndpointSecurity.Agent.HeapGrowth
import EndpointSecurity.Library.Isolation
import EndpointSecurity.Library.IsolationKey
import EndpointSecurity.Library.IsolationAnswers
import EndpointSecurity.Server.AccountScripts
import EndpointSecurity.Server.ConcurrentUsers
import EndpointSecurity.Dashboard.CreateEndpoint
import EndpointSecurity.Deployment.Enrolment
