import Mailroom.Store.Call
import Mailroom.Store.Items

/-!
The store in memory: every call is answered at once, at an instant, and never fails.
-/

namespace Mailroom.Tables

def serve (t : Tables) (now : Timestamp) : (c : StoreCall) → c.Reply × Tables
  | .domainByName name => (t.domainByName name, t)
  | .domains limit offset => (.cut t.domainsByName limit offset, t)
  | .updateDomain id patch => t.updateDomain id patch now
  | .putDeployment domain server status hash error =>
      t.putDeployment domain server status hash error now
  | .dropDeployment domain server => t.dropDeployment domain server
  | .markOutdated domain hash => t.markOutdated domain hash
  | .createJob job items => t.createJob job items now
  | .job id => (t.job? id, t)
  | .jobs status limit offset => (.cut (t.newestJobs status) limit offset, t)
  | .jobsIn status => (t.jobsIn status, t)
  | .dueJobs now => (t.jobs.filter (isDue now), t)
  | .moveJob id sources target => t.moveJob id sources target now
  | .pendingItems job limit => (t.pendingItems job limit, t)
  | .queuedItems limit => (t.queuedItems limit, t)
  | .checkItems ids => ((), t.checkItems ids now)
  | .item id => (t.item? id, t)
  | .queueItem id remoteId => t.queueItem id remoteId now
  | .failItem id source error => t.failItem id source error now
  | .confirmItem id => t.confirmItem id now
  | .resetFailed job => t.resetFailed job now
  | .refreshStats job => t.refreshStats job now
  | .createSend send => t.createSend send now
  | .send id => (t.send? id, t)
  | .finishSend id status remoteId error => t.finishSend id status remoteId error now
  | .keysByLead lead => (t.keysByLead lead now, t)
  | .touchKey id => ((), t.touchKey id now)
  | .template id => (t.templates.find? fun template => template.id == id, t)
  | .templateByName name => (t.templates.find? fun template => template.name == name, t)
  | .campaign id => (t.campaigns.find? fun c => c.id == id, t)
  | .variants campaign => (t.variantsOf campaign, t)
  | .recipient id => (t.recipients.find? fun r => r.id == id, t)
  | .recipients list limit offset => (.cut (t.recipientsOf list) limit offset, t)
  | .globals => (t.globals, t)
  | .setVariable name value => ((), t.setVariable name value)

end Mailroom.Tables
