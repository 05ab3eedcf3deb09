import PanelClient.Api.Description
import PanelClient.Main
import PanelClient.RemoteFiles
import PanelClient.Proofs.Notification.Delivery
import PanelClient.Proofs.Notification.Course
import PanelClient.Proofs.Notification.Interval
import PanelClient.Proofs.Notification.Keeping
import PanelClient.Proofs.Session.Visits
import PanelClient.Proofs.Api.Endpoints
import PanelClient.Proofs.Api.Effects
import PanelClient.Proofs.Notification.Observers
import PanelClient.Proofs.RemoteFiles
import PanelClient.Proofs.Api.Independence
import PanelClient.Proofs.Http.Agent
import PanelClient.Proofs.Program
import PanelClient.Proofs.Notification.Passage
import PanelClient.Proofs.Addresses
import PanelClient.Proofs.Api.Urls
import PanelClient.Proofs.Api.Login
import PanelClient.Proofs.Notification.Stopped
import PanelClient.Proofs.Number.Memory
import PanelClient.Proofs.Notification.Reached
import PanelClient.Proofs.Notification.Load
import PanelClient.Proofs.Settings
import PanelClient.Proofs.CommandLine.Globals
import PanelClient.Proofs.Creation
