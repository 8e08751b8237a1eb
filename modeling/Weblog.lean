import Weblog.Config
import Weblog.Sources
import Weblog.Database
import Weblog.Http.Server
import Weblog.Proofs.Atomicity
import Weblog.Proofs.Store.Snapshot
import Weblog.Proofs.Store.WellFormed
import Weblog.Proofs.Store.Enumeration
import Weblog.Proofs.Blog.Permanence
import Weblog.Proofs.Blog.Independence
import Weblog.Proofs.Blog.Statements
import Weblog.Proofs.Traffic.Reading
import Weblog.Proofs.Texts
import Weblog.Proofs.Uuid
import Weblog.Proofs.Attachment
import Weblog.Proofs.Blog.Newest
import Weblog.Proofs.Blog.Chronicle
import Weblog.Proofs.Discipline
import Weblog.Proofs.Log.Runs
import Weblog.Proofs.Http.Tags
import Weblog.Proofs.Record.Rows
import Weblog.Proofs.Config
import Weblog.Proofs.Error
import Weblog.Proofs.Http.Secrecy
