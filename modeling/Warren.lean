import Warren.Alerts.WebhookAlerter
import Warren.Basic
import Warren.Config.Validate
import Warren.Policy.AlwaysOn
import Warren.Security.Hostname
import Warren.Security.IP
import Warren.Security.URL
