import BeamInit.Os

/-! # The status publisher — `service_status_publisher`

    Each service publishes its status on a broadcast channel.  `sent` is the
    sequence of all values sent on the channel since it was created; a
    subscription is the snapshot it starts from and its position in `sent`. -/

namespace BeamPublisher

open BeamApi

/-- Controls publishing of `ServiceStatus` updates to subscribers. -/
structure ServiceStatusPublisher where
  latest : ApiServiceStatus
  sent : List ApiServiceStatus
deriving DecidableEq

/-- Acts as a receiver for `ServiceStatusPublisher` for service status updates. -/
structure ServiceStatusSubscription where
  current : Option ApiServiceStatus
  position : Nat
deriving DecidableEq

namespace ServiceStatusPublisher

def new (initial : ApiServiceStatus) : ServiceStatusPublisher := ⟨initial, []⟩

def publish (publisher : ServiceStatusPublisher) (status : ApiServiceStatus) :
    ServiceStatusPublisher :=
  if publisher.latest = status then publisher
  else ⟨status, publisher.sent ++ [status]⟩

def subscribe (publisher : ServiceStatusPublisher) : ServiceStatusSubscription :=
  ⟨some publisher.latest, publisher.sent.length⟩

@[simp] theorem publish_latest (publisher : ServiceStatusPublisher) (status : ApiServiceStatus) :
    (publisher.publish status).latest = status := by
  rw [publish]
  by_cases h : publisher.latest = status
  · rw [if_pos h]; exact h
  · rw [if_neg h]

/-- Publishing the latest value again sends nothing. -/
theorem publish_same (publisher : ServiceStatusPublisher) {status : ApiServiceStatus}
    (h : publisher.latest = status) : publisher.publish status = publisher := if_pos h

end ServiceStatusPublisher

end BeamPublisher
